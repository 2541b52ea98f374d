import DuraLLM.Execution.Recovery
import DuraLLM.Lib.Regex
import DuraLLM.Lib.Text
import Mathlib.Algebra.GroupWithZero.Nat

/-! # The failure classifier

`classify_failure` goes through an ordered list of tests of the status code, of
the name of the exception and of the lowered error text.  The first test that
succeeds decides.  Most of them look for words, and many of those stand before
the status codes of the server errors.
-/

namespace DuraLLM.Classifier

/-- What the text, number and mail libraries decide. -/
structure Readers where
  casing : Casing
  chars : CharTable
  digitValue : Char → Nat
  /-- `float(text)`, or no number. -/
  float : String → Option Seconds
  /-- `mktime_tz(parsedate_tz(text))`, or no date. -/
  httpDate : String → Option Seconds

/-- What is handed in as the error: its text, the name of its type, its status
    codes, and the text of its `body` if that is a dictionary. -/
structure ApiError where
  text : String
  typeName : String := "str"
  statusCode : Option Nat := none
  code : Option Nat := none
  responseStatusCode : Option Nat := none
  body : Option String := none

/-! ## Patterns -/

def billingPatterns : List String :=
  ["insufficient credits", "credit balance", "billing", "payment required", "out of credits",
    "usage limit reached", "monthly spending cap", "insufficient_quota", "quota_exceeded",
    "account_deactivated", "balance is too low", "free-models-per-day", "free model requests",
    "add 5 credits"]

def deprecationPatterns : List String :=
  ["deprecated", "decommissioned", "model does not exist", "model not found", "model_not_found",
    "has been removed", "is no longer available", "is not found for api version", "end of life",
    "eol", "has reached its end of life", "sunset", "no longer supported"]

def upstream429Patterns : List String :=
  ["temporarily rate-limited upstream", "upstream_provider_shared_pool", "provider returned error",
    "daily", "quota exceeded"]

def wafPatterns : List String :=
  ["cloudflare", "just a moment...", "challenge-running", "ddos protection", "ray id",
    "attention required! | cloudflare", "security verification"]

def sslPatterns : List String :=
  ["certificate verify failed", "self signed certificate", "sslcertverificationerror", "sslerror"]

def outputCapPatterns : List String :=
  ["must be less than or equal to", "less than or equal to", "range of max_tokens should be",
    "maximum output tokens", "available_tokens", "available tokens",
    "max_tokens is less than the context_window", "on output tokens", "output tokens per minute",
    "otpm"]

def contextOverflowPatterns : List String :=
  ["context_length_exceeded", "payload too large", "maximum context length",
    "token count exceeds limit", "request size exceeds", "too many tokens", "prompt is too long",
    "prompt too long"]

def tpmRateLimitPatterns : List String :=
  ["tokens per minute", "tpm limit", "input tokens per minute", "itpm"]

def schemaIncompatibilityPatterns : List String :=
  ["unrecognized parameter", "unknown field", "additionalproperties", "$schema",
    "invalid_request_error", "unknown parameter", "schema validation error"]

def toolMalformedPatterns : List String :=
  ["malformed tool call", "failed to parse function arguments", "invalid json in tool arguments",
    "invalid_tool_call", "missing required argument", "missing required parameter",
    "invalid tool argument", "unknown tool", "schema validation failed"]

def clientFaultPatterns : List String :=
  ["invalid api key", "unauthorized", "incorrect api key", "bad request syntax",
    "malformed json request"]

/-- What makes an authentication failure permanent. -/
def deniedPatterns : List String :=
  ["access denied", "forbidden", "invalid api key", "incorrect api key", "unauthorized"]

/-- `any(p in msg for p in patterns)` -/
def hasAny (patterns : List String) (msg : String) : Bool := patterns.any (hasText · msg)

/-! ## Numbers in the text -/

section Scanning

variable (chars : CharTable)

/-- What `matcher` gives at the first place where it succeeds. -/
def search {α : Type} (matcher : List Char → Option α) : List Char → Option α
  | [] => matcher []
  | c :: rest => (matcher (c :: rest)).orElse fun _ => search matcher rest

/-- `(\d+)` -/
def digits (text : List Char) : Option (List Char × List Char) :=
  match text.span chars.digit with
  | ([], _) => none
  | (number, rest) => some (number, rest)

/-- `word\s*(\d+)` -/
def numberAfter (word : String) (text : List Char) : Option (List Char × List Char) := do
  let rest ← text.dropPrefix? word.toList
  digits chars (rest.dropWhile chars.space)

/-- `[^0-9]*limit\s*(\d+)`, as far behind as it can be found. -/
def lastLimit : List Char → Option (List Char)
  | [] => none
  | c :: rest =>
      let here := (numberAfter chars "limit" (c :: rest)).map (·.1)
      if c.isDigit then here else (lastLimit rest).orElse fun _ => here

/-- `limit\s*(\d+),\s*requested\s*\d+` -/
def limitThenRequested (text : List Char) : Option (List Char) := do
  let (limit, rest) ← numberAfter chars "limit" text
  let rest ← rest.dropPrefix? [',']
  let _ ← numberAfter chars "requested" (rest.dropWhile chars.space)
  return limit

/-- The number that `parse_input_tpm_limit` reads. -/
def inputTpmNumber (msg : String) : Option (List Char) :=
  let perMinute (text : List Char) : Option (List Char) :=
    ["input tokens per minute", "itpm", "tpm"].findSome? fun unit =>
      (text.dropPrefix? unit.toList).bind (lastLimit chars)
  (search perMinute msg.toList).orElse fun _ =>
    if hasAny ["token", "tpm", "request too large"] msg then
      search (limitThenRequested chars) msg.toList
    else none

/-- `.*?requested\s*(\d+)` -/
def requestedOnLine : List Char → Option (List Char)
  | [] => none
  | c :: rest =>
      ((numberAfter chars "requested" (c :: rest)).map (·.1)).orElse fun _ =>
        if c = '\n' then none else requestedOnLine rest

/-- `limit\s*(\d+).*?requested\s*(\d+)` -/
def limitAndRequested (msg : String) : Option (List Char × List Char) :=
  search (fun text => do
    let (limit, rest) ← numberAfter chars "limit" text
    let requested ← requestedOnLine chars rest
    return (limit, requested)) msg.toList

/-- `try again in\s+([0-9.]+)\s*s` -/
def tryAgainIn (text : List Char) : Option String := do
  let rest ← text.dropPrefix? ("try again in" : String).toList
  if (rest.takeWhile chars.space).isEmpty then none
  else
    let (number, rest) := (rest.dropWhile chars.space).span fun c => c.isDigit || c = '.'
    let unit ← (rest.dropWhile chars.space).head?
    if number.isEmpty ∨ unit ≠ 's' then none else some (String.ofList number)

/-- `try again in (\d+(?:\.\d+)?)s?` -/
def tryAgainInDecimal (text : List Char) : Option String := do
  let rest ← text.dropPrefix? ("try again in " : String).toList
  let (whole, rest) ← digits chars rest
  let fraction := (rest.dropPrefix? ['.']).bind (digits chars)
  return String.ofList (whole ++ (fraction.map fun f => '.' :: f.1).getD [])

end Scanning

variable (lib : Readers)

/-- The digits that `int` converts at most. -/
def intMaxStrDigits : Nat := 4300

/-- The value of the digits. -/
def Readers.valueOf (number : List Char) : Nat :=
  number.foldl (fun n c => 10 * n + lib.digitValue c) 0

/-- `int(number)` -/
def Readers.int (number : List Char) : Except RaisedError Nat :=
  if intMaxStrDigits < number.length then
    .error (.valueError ("Exceeds the limit (4300 digits) for integer string conversion: value has " ++
      toString number.length ++ " digits; use sys.set_int_max_str_digits() to increase the limit"))
  else .ok (lib.valueOf number)

def parseInputTpmLimit (errorMsg : String) : Except RaisedError (Option Nat) :=
  match inputTpmNumber lib.chars (lib.casing.lower errorMsg) with
  | none => .ok none
  | some number => (lib.int number).map some

def parseRetryAfterFromBody (errorMsg : String) : Option Seconds :=
  let msg := lib.casing.lower errorMsg
  ((search (tryAgainIn lib.chars) msg.toList).bind lib.float).map (max (1 / 10))

/-- `val.strip()` -/
def Readers.strip (val : String) : String :=
  String.ofList ((val.toList.dropWhile lib.chars.space).rdropWhile lib.chars.space)

def parseRetryAfter (now : Seconds) (headerVal : Option String) : Option Seconds :=
  match headerVal.filter (· ≠ "") with
  | none => none
  | some header =>
      match lib.float (lib.strip header) with
      | some seconds => some (max 0 seconds)
      | none => (lib.httpDate (lib.strip header)).map fun timestamp => max 0 (timestamp - now)

def calculateSecondsUntilUtcMidnight (now : Seconds) : Seconds :=
  max 60 (86400 - (now - 86400 * (now / 86400).floor))

/-! ## The tests -/

section Tests

variable (error : ApiError) (code : Option Nat) (msg : String)

def isSslFailure : Bool :=
  hasAny sslPatterns msg || hasText "sslerror" (lib.casing.lower error.typeName)

def isConnectionRefused : Bool := hasAny ["connection refused", "errno 61", "errno 111"] msg

def isOutputCap : Bool :=
  (code ∈ [some 400, some 429, none]) && hasAny outputCapPatterns msg

def isEmptyCompletion : Bool := hasAny ["empty response body", "empty completion"] msg

/-- The text says that the request is too large for the tokens of a minute. -/
def saysTooLarge (inTpmLimit : Option Nat) : Bool :=
  hasText "request too large" msg && (hasAny ["tokens per minute", "tpm"] msg || inTpmLimit.isSome)

/-- `limit_val` and `req_val`; an error if `int` raises. -/
def requestedValues : Option (Except RaisedError (Nat × Nat)) :=
  (limitAndRequested lib.chars msg).map fun found => do
    let limitVal ← lib.int found.1
    let reqVal ← lib.int found.2
    return (limitVal, reqVal)

/-- The numbers of the text were read, and more is requested than the limit. -/
def requestsMore : Bool :=
  match requestedValues lib msg with
  | some (.ok (limitVal, reqVal)) => limitVal < reqVal
  | _ => false

/-- The condition of the sizing rejection.  `req_val` is unbound where `int`
    raised, which was caught before. -/
def isOversizedTpm (inTpmLimit : Option Nat) : Except RaisedError Bool :=
  if requestsMore lib msg || saysTooLarge msg inTpmLimit then
    if hasText "try again in" msg then
      match requestedValues lib msg with
      | some (.error _) =>
          .error (.other "UnboundLocalError"
            "cannot access local variable 'req_val' where it is not associated with a value")
      | _ => .ok (requestsMore lib msg)
    else .ok true
  else .ok false

def isTemporalRateLimit : Bool :=
  hasAny ["tokens per minute", "tpm", "try again in"] msg &&
    (hasAny ["rate", "limit"] msg || code ∈ [some 413, some 429])

def isContextOverflow : Bool := code = some 413 || hasAny contextOverflowPatterns msg

def isFreeTierLockout : Bool := hasAny ["free-models-per-day", "free model requests"] msg

def isBilling : Bool := code = some 402 || hasAny billingPatterns msg

def isRateLimited : Bool :=
  code = some 429 || hasAny tpmRateLimitPatterns msg ||
    hasText "ratelimit" (lib.casing.lower error.typeName)

def isModelGone : Bool :=
  (code ∈ [some 404, some 410, some 400] && hasAny deprecationPatterns msg) || code = some 410

def isAuthFailure : Bool :=
  code ∈ [some 401, some 403] || hasAny ["access denied", "forbidden"] msg ||
    hasAny clientFaultPatterns msg

/-- The credentials are refused for good. -/
def isDenied : Bool := code ∈ [some 401, some 403] || hasAny deniedPatterns msg

end Tests

/-- The status codes of an overloaded or failing server. -/
def serverErrorCodes : List Nat := [408, 500, 502, 503, 504, 529]

/-! ## The classifier -/

section Cascade

variable (error : ApiError) (code : Option Nat) (retryAfter : Option Seconds) (msg : String)

/-- `code or default` -/
def codeOr (default : Nat) : Option Nat := some (orNumber code default)

/-- Tests 1 to 3b: certificates, refused connections, output caps, empty replies. -/
def classifyTransport : Option FailureClassification :=
  if isSslFailure lib error msg then
    some
      { category := .infrastructure, reason := .sslCertVerification, shouldFallback := true
        retryable := false, statusCode := code, message := msg }
  else if isConnectionRefused msg then
    some
      { category := .infrastructure, reason := .connectionRefused, shouldFallback := true
        retryable := false, statusCode := some 599, message := msg }
  else if isOutputCap code msg then
    some
      { category := .requestIncompatibility, reason := .outputCapExceeded, shouldFallback := true
        retryable := true, poisonsHealth := false, statusCode := codeOr code 400, message := msg }
  else if isEmptyCompletion msg then
    some
      { category := .semanticAgentFailure, reason := .emptyCompletion, shouldFallback := true
        retryable := true, poisonsHealth := false, statusCode := codeOr code 502, message := msg }
  else none

/-- Test 3c: more tokens than a minute allows. -/
def oversizedTpm (inTpmLimit : Option Nat) : FailureClassification where
  category := .requestIncompatibility
  reason := .payloadTooLarge
  shouldFallback := true
  retryable := false
  poisonsHealth := false
  statusCode := codeOr code 413
  message := msg
  tokenLimit := inTpmLimit.filter (· ≠ 0)

/-- The wait of a temporal rate limit. -/
def temporalDelay : Seconds :=
  match retryAfter.filter (· ≠ 0) with
  | some delay => delay
  | none => ((search (tryAgainInDecimal lib.chars) msg.toList).bind lib.float).getD 3

/-- The wait of a rate limit. -/
def rateLimitDelay : Option Seconds :=
  let delay :=
    match retryAfter.filter (· ≠ 0) with
    | some delay => some delay
    | none => parseRetryAfterFromBody lib msg
  match delay with
  | some delay => some delay
  | none => if hasAny tpmRateLimitPatterns msg then some 60 else none

/-- Tests 3d to 5: rate limits, context overflow, quotas and credits. -/
def classifyLimits (now : Seconds) : Option FailureClassification :=
  if isTemporalRateLimit code msg then
    some
      { category := .rateLimit, reason := .rateLimit, shouldFallback := true, retryable := true
        statusCode := codeOr code 429, retryAfterSeconds := some (temporalDelay lib retryAfter msg)
        message := msg }
  else if isContextOverflow code msg then
    some
      { category := .requestIncompatibility, reason := .payloadTooLarge, shouldFallback := true
        retryable := false, poisonsHealth := false, statusCode := some 413, message := msg }
  else if isFreeTierLockout msg then
    some
      { category := .rateLimit, reason := .billing, shouldFallback := true, retryable := false
        poisonsHealth := false, statusCode := codeOr code 429
        retryAfterSeconds := some (calculateSecondsUntilUtcMidnight now), message := msg }
  else if isBilling code msg then
    some
      { category := .rateLimit, reason := .billing, shouldFallback := true, retryable := false
        isPermanent := true, statusCode := some 402, message := msg }
  else if isRateLimited lib error code msg then
    some
      { category := .rateLimit
        reason := if hasAny upstream429Patterns msg then .upstreamRateLimit else .rateLimit
        shouldFallback := true, retryable := true, statusCode := some 429
        retryAfterSeconds := rateLimitDelay lib retryAfter msg, message := msg }
  else none

/-- Tests 6 to 9: models that are gone, tools and schemas, credentials. -/
def classifyRequest : Option FailureClassification :=
  if isModelGone code msg then
    some
      { category := .requestIncompatibility, reason := .modelNotFound, shouldFallback := true
        retryable := false, poisonsHealth := false, isPermanent := true
        statusCode := codeOr code 410, message := msg }
  else if code = some 404 then
    some
      { category := .requestIncompatibility, reason := .modelNotFound, shouldFallback := true
        retryable := false, poisonsHealth := false, isPermanent := true, statusCode := some 404
        message := msg }
  else if hasAny toolMalformedPatterns msg then
    some
      { category := .semanticAgentFailure, reason := .malformedToolCall, shouldFallback := true
        retryable := false, poisonsHealth := false, statusCode := codeOr code 200, message := msg }
  else if code = some 400 && hasAny schemaIncompatibilityPatterns msg then
    some
      { category := .requestIncompatibility, reason := .schemaIncompatible, shouldFallback := true
        retryable := false, poisonsHealth := false, statusCode := some 400, message := msg }
  else if isAuthFailure code msg then
    some
      { category := if hasAny clientFaultPatterns msg then .clientFault else .infrastructure
        reason := .auth, shouldFallback := true, retryable := false, poisonsHealth := false
        isPermanent := isDenied code msg, statusCode := codeOr code 403, message := msg }
  else none

/-- Tests 10 to 12 and what is left: challenges, server errors, timeouts. -/
def classifyServer : FailureClassification :=
  if hasAny wafPatterns msg then
    { category := .infrastructure, reason := .wafBlocked, shouldFallback := true
      retryable := false, statusCode := codeOr code 403, message := msg }
  else if code ∈ serverErrorCodes.map some ∨
      hasAny ["overloaded", "bad gateway", "gateway timeout"] msg then
    { category := .infrastructure
      reason :=
        if code ∈ [some 503, some 529] ∨ hasText "overloaded" msg then .overloaded else .serverError
      shouldFallback := true, retryable := true, statusCode := code, message := msg }
  else if hasAny ["timeout", "timed out"] msg ∨
      hasText "connecttimeout" (lib.casing.lower error.typeName) then
    { category := .infrastructure, reason := .timeout, shouldFallback := true, retryable := true
      statusCode := codeOr code 504, message := msg }
  else if code.any (fun code => 400 ≤ code ∧ code < 500) then
    { category := .requestIncompatibility, reason := .clientError, shouldFallback := true
      retryable := false, poisonsHealth := false, statusCode := code, message := msg }
  else
    { category := .unknown, reason := .unknown, shouldFallback := true, retryable := true
      statusCode := code, message := msg }

end Cascade

/-- The status code that counts: the one handed in, or the first one that the
    error carries. -/
def failureStatus (error : ApiError) (statusCode : Option Nat) : Option Nat :=
  statusCode <|> error.statusCode <|> error.code <|> error.responseStatusCode

/-- The lowered text, with that of the body behind it. -/
def errorText (error : ApiError) : String :=
  match error.body with
  | none => lib.casing.lower error.text
  | some body => lib.casing.lower error.text ++ " " ++ lib.casing.lower body

/-- `clean_headers.get("retry-after")`; of two spellings of one name, the later counts. -/
def retryAfterHeader (headers : List (String × String)) : Option String :=
  (headers.reverse.map fun h => (lib.casing.lower h.1, h.2)).lookup "retry-after"

def classifyFailure (now : Seconds) (error : ApiError) (statusCode : Option Nat)
    (headers : List (String × String)) : Except RaisedError FailureClassification :=
  let code := failureStatus error statusCode
  let msg := errorText lib error
  let retryAfter := parseRetryAfter lib now (retryAfterHeader lib headers)
  match classifyTransport lib error code msg with
  | some classified => .ok classified
  | none => do
      let inTpmLimit ← parseInputTpmLimit lib msg
      if ← isOversizedTpm lib msg inTpmLimit then return oversizedTpm code msg inTpmLimit
      else
        match classifyLimits lib error code retryAfter msg now <|> classifyRequest code msg with
        | some classified => return classified
        | none => return classifyServer lib error code msg

end DuraLLM.Classifier
