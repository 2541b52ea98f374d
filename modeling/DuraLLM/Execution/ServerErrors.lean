import DuraLLM.Execution.Classifier

/-! # Server errors and the dead list

A reply with the status of a failing server says nothing final about the
endpoint.  The classifier tests the words of the text before it looks at those
status codes, and two of these tests make a failure permanent: the words of a
billing problem and those of refused credentials.
-/

namespace DuraLLM.Classifier

/-- The failure does not blame the model, and it is permanent unless `mild` holds. -/
def Rates (classified : FailureClassification) (mild : Prop) : Prop :=
  classified.reason ≠ .modelNotFound ∧ (classified.isPermanent = false ↔ mild)

/-- A failure that is not permanent and does not blame the model leaves the dead
    list as it is. -/
theorem recordPermanent_transient {classified : FailureClassification}
    (transient : classified.isPermanent = false) (model : classified.reason ≠ .modelNotFound)
    {Json Decision : Type} (call : ExecuteCall Json) (s : LoopState Json) (endpoint : Endpoint) :
    (recordPermanent call s endpoint classified : Local Json Decision _) = pure s := by
  have neither : ¬(classified.isPermanent = true ∨ classified.reason = .modelNotFound) := by
    simp [transient, model]
  rw [recordPermanent, if_neg neither]

/-! ## What the text says, whatever the status -/

section Texts

variable (lib : Readers) (error : ApiError) (msg : String)

/-- One of the tests in front of the numbers succeeds. -/
def isTransport : Bool :=
  isSslFailure lib error msg || isConnectionRefused msg || isEmptyCompletion msg

/-- The text says that the request is too large for the tokens of a minute, or
    names a limit of them beside that. -/
def isTooLarge : Bool :=
  hasText "request too large" msg &&
    (hasAny ["tokens per minute", "tpm"] msg ||
      (inputTpmNumber lib.chars (lib.casing.lower msg)).isSome)

/-- A number that is needed has more digits than `int` takes. -/
def Unreadable : Prop :=
  (∃ number, inputTpmNumber lib.chars (lib.casing.lower msg) = some number ∧
      intMaxStrDigits < number.length) ∨
    (isTooLarge lib msg ∧ hasText "try again in" msg) ∧
      ∃ found, limitAndRequested lib.chars msg = some found ∧
        (intMaxStrDigits < found.1.length ∨ intMaxStrDigits < found.2.length)

/-- The request is larger than the tokens of a minute allow. -/
def Oversized : Prop :=
  requestsMore lib msg ∨ (isTooLarge lib msg ∧ ¬hasText "try again in" msg)

/-- The text keeps a failing server from being taken for a dead endpoint. -/
def SparesEndpoint : Prop :=
  isTransport lib error msg ∨
    ¬Unreadable lib msg ∧
      (Oversized lib msg ∨ isTemporalRateLimit none msg ∨ isContextOverflow none msg ∨
        isFreeTierLockout msg ∨
        ¬isBilling none msg ∧
          (isRateLimited lib error none msg ∨ hasAny toolMalformedPatterns msg ∨
            ¬isDenied none msg))

end Texts

variable {lib : Readers} {error : ApiError} {msg : String}

/-! ## Numbers -/

theorem int_error_iff (number : List Char) :
    (∃ e, lib.int number = .error e) ↔ intMaxStrDigits < number.length := by
  unfold Readers.int
  split <;> simp_all

theorem int_ok_of_le {number : List Char} (short : ¬intMaxStrDigits < number.length) :
    lib.int number = .ok (lib.valueOf number) := if_neg short

theorem parseInputTpmLimit_error_iff :
    (∃ e, parseInputTpmLimit lib msg = .error e) ↔
      ∃ number, inputTpmNumber lib.chars (lib.casing.lower msg) = some number ∧
        intMaxStrDigits < number.length := by
  unfold parseInputTpmLimit
  cases inputTpmNumber lib.chars (lib.casing.lower msg) with
  | none => simp
  | some number =>
      simp only [Option.some.injEq, exists_eq_left', ← @int_error_iff lib number]
      cases lib.int number <;> simp [Except.map]

theorem parseInputTpmLimit_isSome {inTpmLimit : Option Nat}
    (parsed : parseInputTpmLimit lib msg = .ok inTpmLimit) :
    inTpmLimit.isSome = (inputTpmNumber lib.chars (lib.casing.lower msg)).isSome := by
  unfold parseInputTpmLimit at parsed
  cases found : inputTpmNumber lib.chars (lib.casing.lower msg) with
  | none =>
      rw [found] at parsed
      cases parsed
      rfl
  | some number =>
      rw [found] at parsed
      dsimp only at parsed
      cases value : lib.int number with
      | error e =>
          rw [value] at parsed
          cases parsed
      | ok n =>
          rw [value] at parsed
          cases parsed
          rfl

theorem requestedValues_error_iff :
    (∃ e, requestedValues lib msg = some (.error e)) ↔
      ∃ found, limitAndRequested lib.chars msg = some found ∧
        (intMaxStrDigits < found.1.length ∨ intMaxStrDigits < found.2.length) := by
  unfold requestedValues
  cases limitAndRequested lib.chars msg with
  | none => simp
  | some found =>
      simp only [Option.map_some, Option.some.injEq, exists_eq_left',
        ← @int_error_iff lib]
      cases lib.int found.1 <;> cases lib.int found.2 <;>
        simp [bind, Except.bind, pure, Except.pure]

theorem saysTooLarge_eq {inTpmLimit : Option Nat}
    (parsed : parseInputTpmLimit lib msg = .ok inTpmLimit) :
    saysTooLarge msg inTpmLimit = isTooLarge lib msg := by
  rw [saysTooLarge, isTooLarge, parseInputTpmLimit_isSome parsed]

/-- More cannot be requested than a limit that was not read. -/
theorem requestsMore_of_error {e : RaisedError}
    (unread : requestedValues lib msg = some (.error e)) : requestsMore lib msg = false := by
  rw [requestsMore, unread]

/-- What the sizing test ends with. -/
theorem isOversizedTpm_eq {inTpmLimit : Option Nat}
    (parsed : parseInputTpmLimit lib msg = .ok inTpmLimit) (readable : ¬Unreadable lib msg) :
    ∃ oversized, isOversizedTpm lib msg inTpmLimit = .ok oversized ∧
      (oversized = true ↔ Oversized lib msg) := by
  unfold isOversizedTpm Oversized
  rw [saysTooLarge_eq parsed]
  cases more : requestsMore lib msg with
  | true =>
      have read : ∀ e, requestedValues lib msg ≠ some (.error e) := by
        intro e unread
        rw [requestsMore_of_error unread] at more
        cases more
      rw [Bool.true_or, if_pos rfl]
      split
      · split
        · next e unread => exact absurd unread (read e)
        · exact ⟨true, rfl, by simp⟩
      · exact ⟨true, rfl, by simp⟩
  | false =>
      by_cases large : isTooLarge lib msg = true
      · by_cases again : hasText "try again in" msg = true
        · have read : ∀ e, requestedValues lib msg ≠ some (.error e) := fun e unread =>
            readable (.inr ⟨⟨large, again⟩, requestedValues_error_iff.mp ⟨e, unread⟩⟩)
          rw [large, if_pos (by rfl), if_pos again]
          split
          · next e unread => exact absurd unread (read e)
          · exact ⟨false, rfl, by simp [again]⟩
        · rw [large, if_pos (by rfl), if_neg again]
          exact ⟨true, rfl, by simp [again]⟩
      · rw [Bool.not_eq_true] at large
        rw [large]
        exact ⟨false, rfl, by simp⟩

/-- A text whose numbers cannot be read makes the classifier raise. -/
theorem unreadable_raises (bad : Unreadable lib msg) {β : Type}
    (next : Option Nat → Bool → Except RaisedError β) :
    ∃ e, (do
      let inTpmLimit ← parseInputTpmLimit lib msg
      let oversized ← isOversizedTpm lib msg inTpmLimit
      next inTpmLimit oversized) = .error e := by
  cases parsed : parseInputTpmLimit lib msg with
  | error e => exact ⟨e, rfl⟩
  | ok inTpmLimit =>
      cases bad with
      | inl number =>
          obtain ⟨e, raised⟩ := parseInputTpmLimit_error_iff.mpr number
          rw [parsed] at raised
          cases raised
      | inr pair =>
          obtain ⟨⟨large, again⟩, found⟩ := pair
          obtain ⟨e, unread⟩ := requestedValues_error_iff.mpr found
          have raised : isOversizedTpm lib msg inTpmLimit =
              .error (.other "UnboundLocalError"
                "cannot access local variable 'req_val' where it is not associated with a value") := by
            unfold isOversizedTpm
            rw [saysTooLarge_eq parsed, large, again, unread]
            simp
          refine ⟨.other "UnboundLocalError"
            "cannot access local variable 'req_val' where it is not associated with a value", ?_⟩
          change Except.bind (isOversizedTpm lib msg inTpmLimit) _ = _
          rw [raised]
          rfl

/-! ## Tests that do not depend on the status -/

/-- Refused credentials are an authentication failure. -/
theorem isAuthFailure_of_isDenied (denied : isDenied none msg = true) :
    isAuthFailure none msg = true := by
  simp only [isDenied, isAuthFailure, hasAny, deniedPatterns, clientFaultPatterns, List.any_cons,
    List.any_nil] at *
  grind

theorem rates_classifyServer (code : Option Nat) :
    Rates (classifyServer lib error code msg) True := by
  unfold classifyServer
  split_ifs <;> simp [Rates]

/-! ## The tests under the status of a failing server -/

section Server

variable {code : Nat} (server : code ∈ serverErrorCodes)
include server

/-- Tests of a status code ask for codes of other kinds. -/
theorem server_ne : ∀ other ∈ [400, 401, 402, 403, 404, 410, 413, 429], code ≠ other := by
  intro other member same
  subst same
  revert server member
  simp only [serverErrorCodes, List.mem_cons, List.not_mem_nil, or_false]
  omega

theorem isOutputCap_server : isOutputCap (some code) msg = false := by
  have ne := server_ne server
  simp_all [isOutputCap]

theorem isTemporalRateLimit_server :
    isTemporalRateLimit (some code) msg = isTemporalRateLimit none msg := by
  have ne := server_ne server
  simp_all [isTemporalRateLimit]

theorem isContextOverflow_server :
    isContextOverflow (some code) msg = isContextOverflow none msg := by
  have ne := server_ne server
  simp_all [isContextOverflow]

theorem isBilling_server : isBilling (some code) msg = isBilling none msg := by
  have ne := server_ne server
  simp_all [isBilling]

theorem isRateLimited_server :
    isRateLimited lib error (some code) msg = isRateLimited lib error none msg := by
  have ne := server_ne server
  simp_all [isRateLimited]

theorem isDenied_server : isDenied (some code) msg = isDenied none msg := by
  have ne := server_ne server
  simp_all [isDenied]

theorem isAuthFailure_server : isAuthFailure (some code) msg = isAuthFailure none msg := by
  have ne := server_ne server
  simp_all [isAuthFailure]

theorem classifyTransport_server :
    (∃ classified, classifyTransport lib error (some code) msg = some classified ∧
      Rates classified True) ∧ isTransport lib error msg = true ∨
    classifyTransport lib error (some code) msg = none ∧ isTransport lib error msg = false := by
  unfold classifyTransport isTransport
  rw [isOutputCap_server server]
  cases isSslFailure lib error msg <;> cases isConnectionRefused msg <;>
    cases isEmptyCompletion msg <;> simp [Rates]

/-- The words that stand before the status codes, and what they decide. -/
theorem classifyLimits_server (retryAfter : Option Seconds) (now : Seconds) :
    match classifyLimits lib error (some code) retryAfter msg now with
    | some classified =>
        Rates classified
            (isTemporalRateLimit none msg ∨ isContextOverflow none msg ∨ isFreeTierLockout msg ∨
              ¬isBilling none msg) ∧
          (isTemporalRateLimit none msg ∨ isContextOverflow none msg ∨ isFreeTierLockout msg ∨
            isBilling none msg ∨ isRateLimited lib error none msg)
    | none =>
        (¬isTemporalRateLimit none msg ∧ ¬isContextOverflow none msg ∧ ¬isFreeTierLockout msg) ∧
          ¬isBilling none msg ∧ ¬isRateLimited lib error none msg := by
  unfold classifyLimits
  rw [isTemporalRateLimit_server server, isContextOverflow_server server, isBilling_server server,
    isRateLimited_server server]
  cases isTemporalRateLimit none msg with
  | true => simp [Rates]
  | false =>
    cases isContextOverflow none msg with
    | true => simp [Rates]
    | false =>
      cases isFreeTierLockout msg with
      | true => simp [Rates]
      | false =>
        cases isBilling none msg with
        | true => simp [Rates]
        | false =>
          cases isRateLimited lib error none msg with
          | true =>
              simp only [Rates]
              split_ifs <;> simp
          | false => simp

/-- What is left when no test before has decided. -/
theorem classifyRequest_server :
    Rates ((classifyRequest (some code) msg).getD (classifyServer lib error (some code) msg))
      (hasAny toolMalformedPatterns msg ∨ ¬isDenied none msg) := by
  have ne := server_ne server
  have kept : isModelGone (some code) msg = false := by simp_all [isModelGone]
  have found : ¬(some code = some 404) := by simp_all
  have accepted : (decide (some code = some 400) && hasAny schemaIncompatibilityPatterns msg) =
      false := by simp_all
  unfold classifyRequest
  rw [kept, if_neg (by simp), if_neg found, accepted, isAuthFailure_server server,
    isDenied_server server]
  cases hasAny toolMalformedPatterns msg with
  | true => simp [Rates]
  | false =>
    cases denied : isDenied none msg with
    | true => simp [Rates, isAuthFailure_of_isDenied denied]
    | false =>
      cases isAuthFailure none msg with
      | true => simp [Rates]
      | false => simpa using rates_classifyServer (some code)

end Server

/-! ## Every reply of a failing server -/

theorem classifyFailure_of_transport {now : Seconds} {statusCode : Option Nat}
    {headers : List (String × String)} {classified : FailureClassification}
    (decided : classifyTransport lib error (failureStatus error statusCode) (errorText lib error) =
      some classified) :
    classifyFailure lib now error statusCode headers = .ok classified := by
  simp only [classifyFailure, decided]

/-- What the classifier ends with when the tests of the transport fail and every
    number can be read. -/
theorem classifyFailure_of_readable (now : Seconds) {statusCode : Option Nat}
    (headers : List (String × String))
    (undecided : classifyTransport lib error (failureStatus error statusCode)
      (errorText lib error) = none)
    (readable : ¬Unreadable lib (errorText lib error)) :
    ∃ inTpmLimit oversized,
      (oversized = true ↔ Oversized lib (errorText lib error)) ∧
      classifyFailure lib now error statusCode headers =
        .ok (if oversized then
            oversizedTpm (failureStatus error statusCode) (errorText lib error) inTpmLimit
          else
            (classifyLimits lib error (failureStatus error statusCode)
                (parseRetryAfter lib now (retryAfterHeader lib headers)) (errorText lib error)
                now).getD
              ((classifyRequest (failureStatus error statusCode) (errorText lib error)).getD
                (classifyServer lib error (failureStatus error statusCode)
                  (errorText lib error)))) := by
  cases parsed : parseInputTpmLimit lib (errorText lib error) with
  | error e => exact absurd (.inl (parseInputTpmLimit_error_iff.mp ⟨e, parsed⟩)) readable
  | ok inTpmLimit =>
      obtain ⟨oversized, sized, means⟩ := isOversizedTpm_eq parsed readable
      refine ⟨inTpmLimit, oversized, means, ?_⟩
      simp only [classifyFailure, undecided, parsed, sized, bind, Except.bind]
      cases oversized with
      | true => rfl
      | false =>
          cases classifyLimits lib error (failureStatus error statusCode)
              (parseRetryAfter lib now (retryAfterHeader lib headers)) (errorText lib error) now <;>
            cases classifyRequest (failureStatus error statusCode) (errorText lib error) <;> rfl

section Replies

variable (now : Seconds) (headers : List (String × String)) {statusCode : Option Nat} {code : Nat}
  (server : code ∈ serverErrorCodes) (status : failureStatus error statusCode = some code)
include server status

theorem classifyFailure_server
    (answered : isTransport lib error (errorText lib error) = true ∨
      ¬Unreadable lib (errorText lib error)) :
    ∃ classified, classifyFailure lib now error statusCode headers = .ok classified ∧
      Rates classified (SparesEndpoint lib error (errorText lib error)) := by
  unfold SparesEndpoint
  cases @classifyTransport_server lib error (errorText lib error) code server with
  | inl decided =>
      obtain ⟨⟨classified, first, rated⟩, early⟩ := decided
      rw [← status] at first
      exact ⟨classified, classifyFailure_of_transport first, by simpa [early] using rated⟩
  | inr undecided =>
      obtain ⟨passed, late⟩ := undecided
      have readable : ¬Unreadable lib (errorText lib error) := by simpa [late] using answered
      rw [← status] at passed
      obtain ⟨inTpmLimit, oversized, means, same⟩ :=
        classifyFailure_of_readable now headers passed readable
      refine ⟨_, same, ?_⟩
      rw [status]
      simp only [late, Bool.false_eq_true, false_or, readable, not_false_eq_true, true_and]
      cases oversized with
      | true =>
          have large := means.mp rfl
          simp [Rates, oversizedTpm, large]
      | false =>
          have small : ¬Oversized lib (errorText lib error) := fun large =>
            Bool.false_ne_true (means.mpr large)
          have words := @classifyLimits_server lib error (errorText lib error) code server
            (parseRetryAfter lib now (retryAfterHeader lib headers)) now
          rw [if_neg Bool.false_ne_true]
          cases limits : classifyLimits lib error (some code)
              (parseRetryAfter lib now (retryAfterHeader lib headers)) (errorText lib error) now with
          | some classified =>
              rw [limits] at words
              obtain ⟨⟨model, rated⟩, found⟩ := words
              refine ⟨model, rated.trans ?_⟩
              clear rated
              grind
          | none =>
              rw [limits] at words
              obtain ⟨model, rated⟩ := @classifyRequest_server lib error (errorText lib error) code server
              refine ⟨model, rated.trans ?_⟩
              clear rated
              grind

theorem classifyFailure_raises (late : isTransport lib error (errorText lib error) = false)
    (bad : Unreadable lib (errorText lib error)) :
    ∃ e, classifyFailure lib now error statusCode headers = .error e := by
  cases @classifyTransport_server lib error (errorText lib error) code server with
  | inl decided => simp [late] at decided
  | inr undecided =>
      obtain ⟨passed, -⟩ := undecided
      rw [← status] at passed
      simp only [classifyFailure, passed]
      exact unreadable_raises bad _

/-- A reply with the status of a failing server leaves the endpoint alive exactly
    when its text does not stand in the way. -/
theorem server_error_spares_endpoint_iff :
    (∃ classified, classifyFailure lib now error statusCode headers = .ok classified ∧
      classified.isPermanent = false ∧
      ∀ (Json Decision : Type) (call : ExecuteCall Json) (s : LoopState Json) (endpoint : Endpoint),
        (recordPermanent call s endpoint classified : Local Json Decision _) = pure s) ↔
      SparesEndpoint lib error (errorText lib error) := by
  by_cases answered : isTransport lib error (errorText lib error) = true ∨
      ¬Unreadable lib (errorText lib error)
  · obtain ⟨classified, same, model, rated⟩ := classifyFailure_server now headers server status answered
    constructor
    · rintro ⟨other, ends, transient, -⟩
      rw [same] at ends
      cases ends
      exact rated.mp transient
    · intro spared
      have transient := rated.mpr spared
      exact ⟨classified, same, transient, fun _ _ call s endpoint =>
        recordPermanent_transient transient model call s endpoint⟩
  · simp only [not_or, not_not, Bool.not_eq_true] at answered
    obtain ⟨late, bad⟩ := answered
    obtain ⟨e, raised⟩ := classifyFailure_raises now headers server status late bad
    simp [raised, SparesEndpoint, late, bad]

end Replies

/-! ### Two outages -/

/-- ASCII text, and natural numbers. -/
def Readers.ascii : Readers where
  casing := .ascii
  chars := .ascii
  digitValue c := c.toNat - '0'.toNat
  float text := text.toNat?.map fun n => (n : Seconds)
  httpDate _ := none

theorem server_error_spares_endpoint_outage :
    502 ∈ serverErrorCodes ∧
      ((∃ classified,
          classifyFailure .ascii 0 { text := "Bad Gateway" } (some 502) [] = .ok classified ∧
            classified.isPermanent = false ∧
            ∀ (Json Decision : Type) (call : ExecuteCall Json) (s : LoopState Json)
              (endpoint : Endpoint),
              (recordPermanent call s endpoint classified : Local Json Decision _) = pure s) ↔
        SparesEndpoint .ascii { text := "Bad Gateway" }
          (errorText .ascii { text := "Bad Gateway" })) := by
  have server : 502 ∈ serverErrorCodes := by decide
  exact ⟨server, server_error_spares_endpoint_iff 0 [] server rfl⟩

/-- A failing server that mentions its billing is taken for a dead endpoint. -/
theorem billing_outage_is_permanent :
    ∃ classified,
      classifyFailure .ascii 0 { text := "Billing service unavailable" } (some 503) [] =
          .ok classified ∧
        classified.isPermanent = true := by
  have dead : (classifyFailure .ascii 0 { text := "Billing service unavailable" } (some 503)
      []).toOption.any (·.isPermanent) = true := by decide +kernel
  obtain ⟨classified, found, permanent⟩ := (Option.any_eq_true _ _).mp dead
  cases ends : classifyFailure .ascii 0 { text := "Billing service unavailable" } (some 503) [] with
  | error e => simp [ends, Except.toOption] at found
  | ok other =>
      rw [ends] at found
      cases found
      exact ⟨classified, rfl, permanent⟩

end DuraLLM.Classifier
