import DuraLLM.Health.Telemetry
import DuraLLM.Lib.Text
import DuraLLM.Protocol.Ir
import Mathlib.Data.Rat.Floor

/-! # Requirements of a request

The hard constraints that an endpoint has to meet, in the order in which they
are checked, and the context preflight.  A constraint is a pair of its
violation and the text that reports it; the first violation counts.
-/

namespace DuraLLM

/-- A number with a fixed count of decimal places; a tie goes to the even digit. -/
def fixedPlaces (places : Nat) (x : ℚ) : String :=
  let scaled := x * 10 ^ places
  let below := scaled.floor
  let rounded :=
    if 2 * (scaled - below) < 1 then below
    else if 1 < 2 * (scaled - below) then below + 1
    else if below % 2 = 0 then below else below + 1
  let digits := (Nat.toDigits 10 rounded.natAbs).leftpad (places + 1) '0'
  let whole := String.ofList (digits.take (digits.length - places))
  let sign := if x < 0 then "-" else ""
  if places = 0 then sign ++ whole
  else sign ++ whole ++ "." ++ String.ofList (digits.drop (digits.length - places))

def ModelProfile.capabilitiesAreCurrent (profile : ModelProfile) (now : Seconds) : Bool :=
  profile.verificationStatus = .verified ∧ ∃ expiry ∈ profile.capabilityExpiresAt, now < expiry

namespace RequirementVector

variable (casing : Casing) (r : RequirementVector) (profile : ModelProfile)
  (health : EndpointHealthSnapshot) (now : Seconds)

/-- The required compliance items that the model does not declare. -/
def missingCompliance : List String :=
  match r.requiredCompliance with
  | none => []
  | some required =>
      required.filter fun item =>
        casing.lower item ∉ profile.privacy.compliance.map casing.lower

def modelText : String := "Model '" ++ profile.model ++ "'"

/-- The checks of `matches_hard_constraints`: when each fails, and what it says. -/
def hardConstraints : List (Bool × String) :=
  let provider := casing.lower profile.provider
  let model := modelText profile
  [ (r.safetyMarginTokens < 0, "Safety margin must be non-negative"),
    (∃ q ∈ r.minimumQualityScore, ¬(0 ≤ q ∧ q ≤ 1), "Minimum quality score must be in [0, 1]"),
    (∃ limit ∈ r.budgetLimitUsd, limit < 0, "Budget limit must be non-negative"),
    (∃ allowed ∈ r.allowedProviders, provider ∉ allowed.map casing.lower,
      "Provider '" ++ profile.provider ++ "' not in allowed list"),
    (∃ forbidden ∈ r.forbiddenProviders, provider ∈ forbidden.map casing.lower,
      "Provider '" ++ profile.provider ++ "' is in forbidden list"),
    (r.requireTools ∧ profile.supportsTools ≠ some true,
      if profile.supportsTools = none then
        model ++ " has no declared tool-calling capability (unknown model)"
      else model ++ " does not support tool calling"),
    (r.requireParallelTools ∧ profile.supportsParallelTools ≠ some true,
      model ++ " does not support parallel tool calling"),
    (r.requireStructuredOutput ∧ profile.supportsStructuredOutput ≠ some true,
      model ++ " does not support structured output"),
    (r.requireVision ∧ !profile.supportsVision, model ++ " does not support vision/images"),
    (r.requireReasoning ∧ !profile.supportsReasoning,
      model ++ " does not support reasoning/thinking"),
    (r.requireVerifiedCapabilities ∧ !profile.capabilitiesAreCurrent now,
      model ++ " lacks a current verified capability profile"),
    (∃ region ∈ r.requiredRegion, profile.privacy.region ≠ some region,
      model ++ " is not declared in required region '" ++ r.requiredRegion.getD "" ++ "'"),
    (missingCompliance casing r profile ≠ [],
      model ++ " lacks required compliance: " ++
        ", ".intercalate (missingCompliance casing r profile)),
    (r.allowExternalTraffic = some false ∧ profile.privacy.allowsExternalTraffic,
      model ++ " permits external traffic"),
    (r.minimumQualityScore.isSome ∧ profile.expectedQualityScore = none ∧
        !r.allowQualityDegradation, model ++ " has no calibrated quality estimate"),
    (∃ minimum ∈ r.minimumQualityScore, ∃ score ∈ profile.expectedQualityScore, score < minimum ∧
        !r.allowQualityDegradation,
      "Model quality (" ++ fixedPlaces 2 (profile.expectedQualityScore.getD 0) ++
        ") is below required minimum (" ++ fixedPlaces 2 (r.minimumQualityScore.getD 0) ++
        ") without degradation consent"),
    (0 < r.minimumContextTokens ∧ profile.contextWindow < r.minimumContextTokens,
      "Context window (" ++ toString profile.contextWindow ++
        " tokens) below minimum required (" ++ toString r.minimumContextTokens ++ " tokens)"),
    (∃ maximum ∈ r.maximumCostUsd, maximum < r.estimatedCostUsd profile,
      "Estimated cost $" ++ fixedPlaces 6 (r.estimatedCostUsd profile) ++ " exceeds maximum $" ++
        fixedPlaces 6 (r.maximumCostUsd.getD 0)),
    (∃ budget ∈ r.latencyBudgetMs, ∃ ema ∈ health.emaLatencyMs, budget < ema,
      "Observed latency EMA (" ++ fixedPlaces 0 (health.emaLatencyMs.getD 0) ++
        "ms) exceeds budget (" ++ fixedPlaces 0 (r.latencyBudgetMs.getD 0) ++ "ms)") ]

/-- The text of the first constraint that is violated. -/
def matchesHardConstraints : Option String :=
  ((hardConstraints casing r profile health now).find? (·.1)).map (·.2)

/-- What the requirements ask of an endpoint. -/
structure Satisfies : Prop where
  margin : 0 ≤ r.safetyMarginTokens
  quality : ∀ q ∈ r.minimumQualityScore, 0 ≤ q ∧ q ≤ 1
  budget : ∀ limit ∈ r.budgetLimitUsd, 0 ≤ limit
  allowed : ∀ providers ∈ r.allowedProviders,
    casing.lower profile.provider ∈ providers.map casing.lower
  forbidden : ∀ providers ∈ r.forbiddenProviders,
    casing.lower profile.provider ∉ providers.map casing.lower
  tools : r.requireTools → profile.supportsTools = some true
  parallelTools : r.requireParallelTools → profile.supportsParallelTools = some true
  structuredOutput : r.requireStructuredOutput → profile.supportsStructuredOutput = some true
  vision : r.requireVision → profile.supportsVision
  reasoning : r.requireReasoning → profile.supportsReasoning
  verified : r.requireVerifiedCapabilities → profile.capabilitiesAreCurrent now
  region : ∀ region ∈ r.requiredRegion, profile.privacy.region = some region
  compliance : ∀ required ∈ r.requiredCompliance, ∀ item ∈ required,
    casing.lower item ∈ profile.privacy.compliance.map casing.lower
  traffic : r.allowExternalTraffic = some false → ¬profile.privacy.allowsExternalTraffic
  calibrated : r.minimumQualityScore.isSome → ¬r.allowQualityDegradation →
    profile.expectedQualityScore.isSome
  degraded : ∀ minimum ∈ r.minimumQualityScore, ∀ score ∈ profile.expectedQualityScore,
    ¬r.allowQualityDegradation → minimum ≤ score
  context : 0 < r.minimumContextTokens → r.minimumContextTokens ≤ profile.contextWindow
  cost : ∀ maximum ∈ r.maximumCostUsd, r.estimatedCostUsd profile ≤ maximum
  latency : ∀ limit ∈ r.latencyBudgetMs, ∀ ema ∈ health.emaLatencyMs, ema ≤ limit

variable {casing r profile health now}

theorem missingCompliance_eq_nil_iff :
    missingCompliance casing r profile = [] ↔ ∀ required ∈ r.requiredCompliance,
      ∀ item ∈ required, casing.lower item ∈ profile.privacy.compliance.map casing.lower := by
  unfold missingCompliance
  cases r.requiredCompliance with
  | none => simp
  | some required => simp [List.filter_eq_nil_iff]

/-- Each check fails exactly when its constraint does. -/
theorem hardConstraints_iff :
    (∀ check ∈ hardConstraints casing r profile health now, check.1 = false) ↔
      Satisfies casing r profile health now := by
  simp only [hardConstraints, List.forall_mem_cons, List.not_mem_nil, false_imp_iff, implies_true,
    and_true, decide_eq_false_iff_not]
  constructor
  · rintro ⟨margin, quality, budget, allowed, forbidden, tools, parallel, structured, vision,
      reasoning, verified, region, compliance, traffic, calibrated, degraded, context, cost, latency⟩
    constructor
    · exact not_lt.mp margin
    · simpa using quality
    · simpa using budget
    · simpa using allowed
    · simpa using forbidden
    · simpa using tools
    · simpa using parallel
    · simpa using structured
    · simpa using vision
    · simpa using reasoning
    · simpa using verified
    · simpa using region
    · exact missingCompliance_eq_nil_iff.mp (not_not.mp compliance)
    · simpa using traffic
    · intro asked consent
      cases known : profile.expectedQualityScore with
      | some score => rfl
      | none => exact absurd ⟨asked, known, by simpa using consent⟩ calibrated
    · intro minimum asked score known consent
      exact not_lt.mp fun below =>
        degraded ⟨minimum, asked, score, known, below, by simpa using consent⟩
    · simpa using context
    · simpa using cost
    · simpa using latency
  · intro satisfies
    refine ⟨not_lt.mpr satisfies.margin, ?_, ?_, ?_, ?_, ?_, ?_, ?_, ?_, ?_, ?_, ?_, ?_, ?_, ?_, ?_,
      ?_, ?_, ?_⟩
    · simpa using satisfies.quality
    · simpa using satisfies.budget
    · simpa using satisfies.allowed
    · simpa using satisfies.forbidden
    · simpa using satisfies.tools
    · simpa using satisfies.parallelTools
    · simpa using satisfies.structuredOutput
    · simpa using satisfies.vision
    · simpa using satisfies.reasoning
    · simpa using satisfies.verified
    · simpa using satisfies.region
    · exact not_not.mpr (missingCompliance_eq_nil_iff.mpr satisfies.compliance)
    · simpa using satisfies.traffic
    · rintro ⟨asked, unknown, consent⟩
      have known := satisfies.calibrated asked (by simpa using consent)
      simp [unknown] at known
    · rintro ⟨minimum, asked, score, known, below, consent⟩
      exact absurd (satisfies.degraded minimum asked score known (by simpa using consent))
        (not_le.mpr below)
    · simpa using satisfies.context
    · simpa using satisfies.cost
    · simpa using satisfies.latency

theorem matchesHardConstraints_iff :
    matchesHardConstraints casing r profile health now = none ↔
      Satisfies casing r profile health now := by
  rw [← hardConstraints_iff, matchesHardConstraints, Option.map_eq_none_iff, List.find?_eq_none]
  simp

end RequirementVector

/-! ## Context preflight -/

structure TokenizerPreflight where
  tokenizerId : String
  tokenizerRevision : Option String
  inputTokens : Int
  expectedOutputTokens : Int
  safetyMarginTokens : Int
  contextWindow : Int
  fitsWithoutCompaction : Bool
  requiresCompaction : Bool
  compatible : Bool
  reason : Option String := none
  deriving DecidableEq

section Preflight

variable (profile : ModelProfile)
  (inputTokens expectedOutputTokens safetyMarginTokens : Int) (allowCompaction : Bool)

/-- The output that is reserved: what is expected, within what the model gives. -/
def effectiveOutput : Int :=
  let ceiling := orNumber (some profile.maxOutputTokens) 4096
  min (if 0 < expectedOutputTokens then expectedOutputTokens else ceiling) ceiling

def preflightContext : TokenizerPreflight :=
  let output := effectiveOutput profile expectedOutputTokens
  let required := max 0 inputTokens + max 0 output + max 0 safetyMarginTokens
  let minimumRequired := max 0 output + max 0 safetyMarginTokens
  if required ≤ profile.contextWindow then
    { tokenizerId := profile.tokenizerId
      tokenizerRevision := profile.tokenizerRevision
      inputTokens := max 0 inputTokens
      expectedOutputTokens := max 0 output
      safetyMarginTokens := max 0 safetyMarginTokens
      contextWindow := profile.contextWindow
      fitsWithoutCompaction := true
      requiresCompaction := false
      compatible := true }
  else
    let (reason, compatible) :=
      if profile.contextWindow < minimumRequired then
        ("Required output plus safety margin (" ++ toString minimumRequired ++
          " tokens) exceeds context window (" ++ toString profile.contextWindow ++ " tokens)", false)
      else ("Input exceeds context window and requires compaction", allowCompaction)
    { tokenizerId := profile.tokenizerId
      tokenizerRevision := profile.tokenizerRevision
      inputTokens := max 0 inputTokens
      expectedOutputTokens := max 0 expectedOutputTokens
      safetyMarginTokens := max 0 safetyMarginTokens
      contextWindow := profile.contextWindow
      fitsWithoutCompaction := false
      requiresCompaction := true
      compatible
      reason := some reason }

/-- The turn fits, or its input may be compacted and the rest fits. -/
def FitsContext : Prop :=
  let output := max 0 (effectiveOutput profile expectedOutputTokens)
  let margin := max 0 safetyMarginTokens
  max 0 inputTokens + output + margin ≤ profile.contextWindow ∨
    (allowCompaction ∧ output + margin ≤ profile.contextWindow)

theorem preflightContext_compatible_iff :
    (preflightContext profile inputTokens expectedOutputTokens safetyMarginTokens
      allowCompaction).compatible = true ↔
    FitsContext profile inputTokens expectedOutputTokens safetyMarginTokens allowCompaction := by
  simp only [preflightContext, FitsContext]
  split
  · next fits => simp [fits]
  · next tooLong =>
    split
    · next short => simp [tooLong, not_le.mpr short]
    · next room => simp [tooLong, not_lt.mp room]

end Preflight

end DuraLLM
