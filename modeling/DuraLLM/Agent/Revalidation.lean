import DuraLLM.Agent.PreservedArguments

/-! # Validating what was validated

Every conversion gives a value of the declared type, and keys are never added or
taken away.  So a second check of an accepted object has nothing left to do.
Envelopes are different: one of them is taken off in each call, so an envelope
inside an envelope comes off in the next.
-/

namespace DuraLLM

variable {F X : Type} [DecidableEq X] {rt : DynRuntime F X} {validator : ToolCallValidator}

/-! ## Keys -/

/-- Only the keys of an object matter to the check of its keys, and the path is in
    the messages only. -/
theorem checkKeys_again {schema entries others : DynEntries F X} {pathPrefix : String}
    (inOrder : checkKeys rt schema entries pathPrefix = .accepted)
    (same : Entries.keys others = Entries.keys entries) (other : String) :
    checkKeys rt schema others other = .accepted := by
  obtain ⟨required, itemsOf, present, closed⟩ := checkKeys_accepted_iff.mp inOrder
  have held : presentIn rt others = presentIn rt entries := by
    funext value
    rw [presentIn, presentIn]
    cases rt.asKey value with
    | none => rfl
    | some key =>
        have both : (Entries.get key others).isSome = (Entries.get key entries).isSome := by
          rw [Bool.eq_iff_iff, Entries.get_isSome_iff, Entries.get_isSome_iff, same]
        simp only [both]
  exact checkKeys_accepted_iff.mpr ⟨required, itemsOf, held ▸ present, same ▸ closed⟩

/-! ## Values -/

section Values

variable {checkObject : DynEntries F X → DynEntries F X → String → Checked (DynEntries F X)}
  {fieldName : String}

theorem scalar_settled {spec : DynEntries F X} {check : DynValue F X → ScalarCheck F X}
    {val : DynValue F X}
    (scalar : scalarCheck validator rt fieldName (declaredType spec) = some check)
    (accepted : ((check val).checked fieldName val).verdict = .accepted) (other : String) :
    checkValue validator rt checkObject (.dict spec) other
        ((check val).checked fieldName val).target =
      { target := ((check val).checked fieldName val).target } := by
  obtain ⟨again, scalarAgain⟩ := scalarCheck_elsewhere scalar other
  obtain ⟨keeps, whole⟩ | ⟨value, how, converted, whole⟩ := ScalarCheck.of_accepted accepted
  · rw [whole, checkValue_scalar scalarAgain, (keeps_iff scalarAgain).mpr ((keeps_iff scalar).mp keeps)]
    rfl
  · have conversion := (conversion_of_scalarCheck scalar converted).1
    rw [whole, checkValue_scalar scalarAgain, (keeps_iff scalarAgain).mpr conversion.fits]
    rfl

/-- An accepted value is accepted again, wherever it stands, and stays as it is. -/
theorem value_settled
    (objects : ∀ schema, (DynValue.dict schema).Proper → ∀ entries name,
      (checkObject schema entries name).verdict = .accepted → ∀ other,
        checkObject schema (checkObject schema entries name).target other =
          { target := (checkObject schema entries name).target })
    {propSpec val : DynValue F X} (proper : propSpec.Proper)
    (accepted : (checkValue validator rt checkObject propSpec fieldName val).verdict = .accepted)
    (other : String) :
    checkValue validator rt checkObject propSpec other
        (checkValue validator rt checkObject propSpec fieldName val).target =
      { target := (checkValue validator rt checkObject propSpec fieldName val).target } := by
  cases propSpec with
  | dict spec =>
      cases type : declaredType spec with
      | integer | number | boolean | string =>
          have scalar := congrArg (scalarCheck validator rt fieldName) type
          rw [checkValue_scalar scalar] at accepted ⊢
          exact scalar_settled scalar accepted other
      | other => simp only [checkValue, type]
      | array =>
          simp only [checkValue, type] at accepted ⊢
          cases val with
          | list items =>
              cases itemsOf : objectItems spec with
              | none => rfl
              | some itemSpec =>
                  simp only [itemsOf] at accepted ⊢
                  have again : checkItems rt (checkObject itemSpec) other 0
                      (checkItems rt (checkObject itemSpec) fieldName 0 items).target =
                      { target := (checkItems rt (checkObject itemSpec) fieldName 0 items).target } := by
                    apply checkItems_settled
                    intro item member
                    obtain ⟨i, here⟩ := List.getElem?_of_mem member
                    have bound : i < items.length := by
                      rw [← checkItems_length rt _ _ 0 items]
                      exact (List.getElem?_eq_some_iff.mp here).1
                    obtain ⟨entries, same, inner⟩ :=
                      checkItems_accepted accepted (List.getElem?_eq_getElem bound)
                    have found := here.symm.trans inner.leaves
                    cases found
                    exact ⟨_, rfl, objects itemSpec (items_proper proper itemsOf) entries _
                      inner.accepted⟩
                  rw [again]
          | none | bool | int | float | str | dict | other => cases accepted
      | object =>
          simp only [checkValue, type] at accepted ⊢
          cases val with
          | dict entries =>
              cases inside : goesInto rt spec with
              | false => simp
              | true =>
                  simp only [inside, if_true] at accepted ⊢
                  rw [objects spec proper entries fieldName accepted other]
          | none | bool | int | float | str | list | other => cases accepted
  | none | bool | int | float | str | list | other => cases accepted

end Values

/-! ## Objects -/

theorem object_settled (depth : Nat) (schema : DynEntries F X)
    (proper : (DynValue.dict schema).Proper) (target : DynEntries F X) (pathPrefix : String)
    (accepted : (validateSchema validator rt depth schema target pathPrefix).verdict = .accepted)
    (other : String) :
    validateSchema validator rt depth schema
        (validateSchema validator rt depth schema target pathPrefix).target other =
      { target := (validateSchema validator rt depth schema target pathPrefix).target } := by
  induction depth generalizing schema target pathPrefix other with
  | zero => cases accepted
  | succ depth ih =>
      obtain ⟨inner, properties, same, inOrder, declared, whole⟩ := validateSchema_accepted accepted
      cases same
      rw [whole] at accepted ⊢
      have keys := checkProperties_keys rt (checkValue validator rt (validateSchema validator rt depth))
        pathPrefix properties target
      have settled : checkProperties rt (checkValue validator rt (validateSchema validator rt depth))
          other properties (checkProperties rt
            (checkValue validator rt (validateSchema validator rt depth)) pathPrefix properties
            target).target = { target := (checkProperties rt
              (checkValue validator rt (validateSchema validator rt depth)) pathPrefix properties
              target).target } := by
        apply checkProperties_settled
        intro key spec member val found
        have present : (Entries.get key target).isSome := by
          rw [Entries.get_isSome_iff, ← keys, ← Entries.get_isSome_iff, found]
          rfl
        obtain ⟨given, here⟩ := Option.isSome_iff_exists.mp present
        have each := checkProperties_accepted (properties_distinct proper declared) accepted member
          here
        have same := found.symm.trans each.leaves
        cases same
        exact value_settled (fun schema proper entries name => ih schema proper entries name)
          (property_proper proper declared member) each.accepted _
      rw [validateSchema, checkKeys_again inOrder keys other]
      simp only [declared]
      exact settled

/-! ## Calls -/

/-- An object that a call unwraps: nothing but an envelope that the schema does
    not declare. -/
def LoneEnvelope (validator : ToolCallValidator) (rt : DynRuntime F X)
    (schema : Option (ToolSchema F X)) (args : DynEntries F X) : Prop :=
  validator.allowSyntacticRepairs = true ∧ ∃ params, schemaParams rt schema = some (.dict params) ∧
    ∃ wrapper ∈ wrappers, ∃ inner, args = [(.text wrapper, .dict inner)] ∧
      holdsKey rt (propertiesOf params) (.text wrapper) = .ok false

/-- An undeclared envelope comes off. -/
theorem unwrapEnvelope_lone {expectedProps : DynValue F X} {wrapper : String}
    {inner : DynEntries F X} (undeclared : holdsKey rt expectedProps (.text wrapper) = .ok false)
    {names : List String} (member : wrapper ∈ names) :
    unwrapEnvelope rt expectedProps [(.text wrapper, .dict inner)] names =
      .ok (inner, ["unwrap_" ++ wrapper ++ "_envelope"]) := by
  induction names with
  | nil => cases member
  | cons name names ih =>
      rw [unwrapEnvelope]
      by_cases same : wrapper = name
      · subst same
        simp [envelope, undeclared, bind, Except.bind, pure, Except.pure]
      · have other : ¬(DynKey.text wrapper : DynKey X) = .text name := by simp [same]
        simp only [envelope, if_neg other]
        exact ih ((List.mem_cons.mp member).resolve_left same)

/-- Under a dictionary of properties nothing else comes off. -/
theorem unwrapEnvelope_other {properties args : DynEntries F X} {names : List String}
    (other : ∀ wrapper ∈ names, ∀ inner, args = [(.text wrapper, .dict inner)] →
      holdsKey rt (.dict properties) (.text wrapper) ≠ .ok false) :
    unwrapEnvelope rt (.dict properties) args names = .ok (args, []) := by
  induction names with
  | nil => rfl
  | cons name names ih =>
      have rest := ih fun wrapper member => other wrapper (List.mem_cons_of_mem _ member)
      rw [unwrapEnvelope]
      cases wrapped : envelope name args with
      | none => exact rest
      | some inner =>
          have whole : args = [(.text name, .dict inner)] := by
            rw [envelope.eq_def] at wrapped
            split at wrapped
            · split at wrapped
              · next same =>
                cases wrapped
                rw [same]
              · cases wrapped
            · cases wrapped
          have declared := other name List.mem_cons_self inner whole
          rw [holdsKey] at declared
          cases held : (Entries.get (.text name) properties).isSome with
          | false =>
              rw [held] at declared
              exact absurd rfl declared
          | true =>
              simp only [holdsKey, held, bind, Except.bind, if_true]
              exact rest

/-- What a second call finds: the same arguments and nothing to note, unless it
    cannot write them or has one more envelope to take off. -/
theorem revalidation_settled_iff (validator : ToolCallValidator) (rt : DynRuntime F X)
    (toolName : String) (arguments : DynValue F X) (schema : Option (ToolSchema F X))
    (known : Option (List String)) {report : ToolCallReport F X}
    (returned : (validateToolCall validator rt toolName arguments schema known).result = .ok report)
    (executable : report.isExecutable = true) :
    (∃ again, (validateToolCall validator rt toolName (.dict report.validatedArguments) schema
        known).result = .ok again ∧ again.status = .valid ∧
      again.validatedArguments = report.validatedArguments ∧ again.normalizationsApplied = []) ↔
    (∃ raw, rawText rt (.dict report.validatedArguments) = .ok raw) ∧
      ¬LoneEnvelope validator rt schema report.validatedArguments := by
  obtain ⟨_, parsed, repairs, _, catalog, _, ran⟩ := executable_cases returned executable
  rw [validateToolCall]
  cases written : rawText rt (.dict report.validatedArguments) with
  | error error => simp
  | ok raw =>
      simp only [catalog, parseArguments, Except.ok.injEq, exists_eq', true_and]
      cases ran with
      | unchecked noSchema arguments normalizations =>
          have none : ¬LoneEnvelope validator rt schema report.validatedArguments := by
            intro lone
            obtain ⟨_, params, found, _⟩ := lone
            rw [noSchema] at found
            cases found
          simp [checkParsed, noSchema, none]
      | @checked params base unwrapping checkedBy handed accepted arguments normalizations =>
          have settled := object_settled _ params (schemaParams_proper checkedBy) base "" accepted ""
          change checkRoot validator rt params (checkRoot validator rt params base).target =
            { target := (checkRoot validator rt params base).target } at settled
          rw [← arguments] at settled
          obtain ⟨_, properties, _, _, declared, _⟩ := validateSchema_accepted accepted
          constructor
          · intro again lone
            obtain ⟨allowed, others, found, wrapper, member, inner, whole, undeclared⟩ := lone
            rw [checkedBy] at found
            cases found
            obtain ⟨again, ran, _, _, nothing⟩ := again
            have comes : unwrapped validator rt params report.validatedArguments =
                .ok (inner, ["unwrap_" ++ wrapper ++ "_envelope"]) := by
              rw [unwrapped, if_pos allowed, whole]
              exact unwrapEnvelope_lone undeclared member
            simp only [checkParsed, checkedBy, comes] at ran
            cases verdict : (checkRoot validator rt params inner).verdict with
            | raised error => simp [verdict] at ran
            | accepted | rejected =>
                simp only [verdict, Except.ok.injEq] at ran
                rw [← ran] at nothing
                simp at nothing
          · intro other
            have kept : unwrapped validator rt params report.validatedArguments =
                .ok (report.validatedArguments, []) := by
              rw [unwrapped, declared]
              split
              · next allowed =>
                apply unwrapEnvelope_other
                intro wrapper member inner whole undeclared
                exact other ⟨allowed, params, checkedBy, wrapper, member, inner, whole,
                  declared ▸ undeclared⟩
              · rfl
            simp [checkParsed, checkedBy, kept, settled]

/-- A property that is not required. -/
def optionalCountSchema : ToolSchema String Empty where
  members := [(.text "properties", .dict [(.text "count", .dict [(.text "type", .str "integer")])])]
  proper := by simp [DynValue.Proper, DynValue.ProperEntries, Entries.keys]

def wrapOnce (args : DynEntries String Empty) : DynEntries String Empty :=
  [(.text "parameters", .dict args)]

theorem revalidation_settled_count :
    ∃ again, (validateToolCall {} .ascii "wait" (.dict countReport.validatedArguments)
      (some countSchema) none).result = .ok again ∧ again.status = .valid ∧
      again.validatedArguments = countReport.validatedArguments ∧
      again.normalizationsApplied = [] := by
  have returned : (validateToolCall {} .ascii "wait" (.dict countArguments)
      (some countSchema) none).result = .ok countReport := rfl
  apply (revalidation_settled_iff {} .ascii "wait" _ (some countSchema) none returned rfl).mpr
  constructor
  · exact ⟨_, rfl⟩
  · intro lone
    obtain ⟨_, _, _, _, _, _, whole, _⟩ := lone
    cases whole

/-- The second call takes off the second of two envelopes. -/
theorem envelopes_come_off_one_by_one :
    ¬∀ (arguments : DynValue String Empty) (schema : Option (ToolSchema String Empty))
      (report : ToolCallReport String Empty),
      (validateToolCall {} .ascii "wait" arguments schema none).result = .ok report →
        report.isExecutable = true →
          ∃ again, (validateToolCall {} .ascii "wait" (.dict report.validatedArguments) schema
            none).result = .ok again ∧ again.status = .valid ∧
            again.validatedArguments = report.validatedArguments ∧
            again.normalizationsApplied = [] := by
  intro idempotent
  have twice := idempotent (.dict (wrapOnce (wrapOnce [(.text "count", .int 5)])))
    (some optionalCountSchema) _ rfl rfl
  obtain ⟨again, ran, valid, _⟩ := twice
  cases ran
  cases valid

end DuraLLM
