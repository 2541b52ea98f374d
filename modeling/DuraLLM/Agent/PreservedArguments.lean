import DuraLLM.Agent.SchemaChecks

/-! # The validator invents nothing

An accepted object has the shape of the given one at every path.  A value changes
only where the schema declares a scalar type, and then into the conversion that
the notes tell of.  A required key that is missing is never passed over.
-/

namespace DuraLLM

variable {F X : Type} [DecidableEq X]

/-! ## The schema along a path -/

def propertySpec (schema : DynEntries F X) (key : DynKey X) : Option (DynValue F X) :=
  match propertiesOf schema with
  | .dict properties => Entries.get key properties
  | _ => none

/-- The schema that a path leads to from the schema of a property: through the
    properties of objects and the items of arrays of objects. -/
def specAt : DynValue F X → DynPath X → Option (DynValue F X)
  | spec, [] => some spec
  | .dict spec, .key k :: path =>
      if declaredType spec = .object then (propertySpec spec k).bind fun inner => specAt inner path
      else none
  | .dict spec, .index _ :: path =>
      if declaredType spec = .array then
        (objectItems spec).bind fun itemSpec => specAt (.dict itemSpec) path
      else none
  | _, _ :: _ => none

/-- The schema that a path leads to in the arguments of a call. -/
def declaredAt (params : DynEntries F X) : DynPath X → Option (DynValue F X)
  | [] => some (.dict params)
  | .key k :: path => (propertySpec params k).bind fun spec => specAt spec path
  | .index _ :: _ => none

def fieldStep (rt : DynRuntime F X) (name : String) : DynStep X → String
  | .key k => fieldOf rt name k
  | .index i => itemField name i

/-- The name of a field in notes and messages. -/
def fieldAt (rt : DynRuntime F X) : String → DynPath X → String
  | name, [] => name
  | name, step :: path => fieldAt rt (fieldStep rt name step) path

/-- The keys that an object must have are there. -/
def HasRequired (rt : DynRuntime F X) (schema entries : DynEntries F X) : Prop :=
  ∀ required, Entries.get (.text "required") schema = some (.list required) →
    ∀ key ∈ required, presentIn rt entries key = .ok true

/-- What an accepted check leaves of a value, where `specs` says what is declared
    at each path below it. -/
structure Preserves (rt : DynRuntime F X) (specs : DynPath X → Option (DynValue F X))
    (fieldName : String) (old new : DynValue F X) (notes : List String) : Prop where
  shapes : ∀ path, (new.valueAt path).map DynValue.shape = (old.valueAt path).map DynValue.shape
  undeclared : ∀ path, specs path = none → new.valueAt path = old.valueAt path
  changes : ∀ path a b, old.valueAt path = some a → new.valueAt path = some b →
    a.isContainer = false → b = a ∨ ∃ spec, specs path = some (.dict spec) ∧
      Conversion rt (declaredType spec) a b ∧
      conversionNote (fieldAt rt fieldName path) (declaredType spec) ∈ notes
  required : ∀ path spec entries, specs path = some (.dict spec) → declaredType spec = .object →
    old.valueAt path = some (.dict entries) → HasRequired rt spec entries

variable {rt : DynRuntime F X} {fieldName : String} {notes : List String}

/-- Nothing is changed where no object with required keys is declared. -/
theorem Preserves.same {specs : DynPath X → Option (DynValue F X)} {val : DynValue F X}
    (required : ∀ path spec entries, specs path = some (.dict spec) → declaredType spec = .object →
      val.valueAt path = some (.dict entries) → HasRequired rt spec entries) :
    Preserves rt specs fieldName val val notes where
  shapes _ := rfl
  undeclared _ _ := rfl
  changes _ _ _ before after _ := .inl (Option.some.inj (after.symm.trans before))
  required := required

theorem Preserves.notes_mono {specs : DynPath X → Option (DynValue F X)} {old new : DynValue F X}
    (preserves : Preserves rt specs fieldName old new notes) {more : List String}
    (subset : notes ⊆ more) : Preserves rt specs fieldName old new more where
  shapes := preserves.shapes
  undeclared := preserves.undeclared
  changes path a b before after scalar :=
    (preserves.changes path a b before after scalar).imp_right
      fun ⟨spec, declared, conversion, noted⟩ => ⟨spec, declared, conversion, subset noted⟩
  required := preserves.required

/-- A step into both versions of a container finds nothing, or finds versions of
    one value. -/
def StepPreserves (rt : DynRuntime F X) (specs : DynPath X → Option (DynValue F X))
    (fieldName : String) (old new : DynValue F X) (notes : List String) (step : DynStep X) : Prop :=
  (old.child step = none ∧ new.child step = none) ∨
    ∃ a b, old.child step = some a ∧ new.child step = some b ∧
      Preserves rt (fun path => specs (step :: path)) (fieldStep rt fieldName step) a b notes

/-- A container whose parts are preserved is preserved. -/
theorem Preserves.of_steps {specs : DynPath X → Option (DynValue F X)} {old new : DynValue F X}
    (container : old.isContainer = true) (shape : new.shape = old.shape)
    (declared : (specs []).isSome)
    (required : ∀ spec entries, specs [] = some (.dict spec) → declaredType spec = .object →
      old = .dict entries → HasRequired rt spec entries)
    (steps : ∀ step, StepPreserves rt specs fieldName old new notes step) :
    Preserves rt specs fieldName old new notes where
  shapes path := by
    cases path with
    | nil => exact congrArg some shape
    | cons step path =>
        rw [DynValue.valueAt, DynValue.valueAt]
        obtain ⟨before, after⟩ | ⟨a, b, before, after, inner⟩ := steps step
        · rw [before, after]
        · rw [before, after]
          exact inner.shapes path
  undeclared path absent := by
    cases path with
    | nil =>
        rw [absent] at declared
        cases declared
    | cons step path =>
        rw [DynValue.valueAt, DynValue.valueAt]
        obtain ⟨before, after⟩ | ⟨a, b, before, after, inner⟩ := steps step
        · rw [before, after]
        · rw [before, after]
          exact inner.undeclared path absent
  changes path a b before after scalar := by
    cases path with
    | nil =>
        cases before
        rw [container] at scalar
        cases scalar
    | cons step path =>
        rw [DynValue.valueAt] at before after
        obtain ⟨none, _⟩ | ⟨v, w, old, new, inner⟩ := steps step
        · rw [none] at before
          cases before
        · rw [old] at before
          rw [new] at after
          exact inner.changes path a b before after scalar
  required path spec entries there object before := by
    cases path with
    | nil =>
        cases before
        exact required spec entries there object rfl
    | cons step path =>
        rw [DynValue.valueAt] at before
        obtain ⟨none, _⟩ | ⟨v, w, old, new, inner⟩ := steps step
        · rw [none] at before
          cases before
        · rw [old] at before
          exact inner.required path spec entries there object before

/-! ## Scalars -/

theorem specAt_cons_of_scalar {spec : DynEntries F X} (object : declaredType spec ≠ .object)
    (array : declaredType spec ≠ .array) (step : DynStep X) (path : DynPath X) :
    specAt (.dict spec) (step :: path) = none := by
  cases step with
  | key k => rw [specAt, if_neg object]
  | index i => rw [specAt, if_neg array]

/-- No object is declared below a scalar type or an unknown one. -/
theorem no_object_below {spec : DynEntries F X} (object : declaredType spec ≠ .object)
    (array : declaredType spec ≠ .array) (val : DynValue F X) :
    ∀ path inner entries, specAt (.dict spec) path = some (.dict inner) →
      declaredType inner = .object → val.valueAt path = some (.dict entries) →
      HasRequired rt inner entries := by
  intro path inner entries declared type
  cases path with
  | nil =>
      cases declared
      exact absurd type object
  | cons step path =>
      rw [specAt_cons_of_scalar object array] at declared
      cases declared

theorem preserves_scalar {validator : ToolCallValidator} {spec : DynEntries F X}
    {check : DynValue F X → ScalarCheck F X} {val : DynValue F X}
    (scalar : scalarCheck validator rt fieldName (declaredType spec) = some check)
    (accepted : ((check val).checked fieldName val).verdict = .accepted) :
    Preserves rt (specAt (.dict spec)) fieldName val ((check val).checked fieldName val).target
      ((check val).checked fieldName val).notes := by
  have object : declaredType spec ≠ .object := by
    intro type
    rw [type] at scalar
    cases scalar
  have array : declaredType spec ≠ .array := by
    intro type
    rw [type] at scalar
    cases scalar
  obtain ⟨_, whole⟩ | ⟨value, how, converted, whole⟩ := ScalarCheck.of_accepted accepted
  · rw [whole]
    exact .same (no_object_below object array val)
  · obtain ⟨conversion, rfl⟩ := conversion_of_scalarCheck scalar converted
    obtain ⟨before, after⟩ := conversion.scalars
    have below (step : DynStep X) (path : DynPath X) :
        value.valueAt (step :: path) = val.valueAt (step :: path) := by
      rw [DynValue.valueAt_of_scalar before, DynValue.valueAt_of_scalar after]
    rw [whole]
    exact
      { shapes := by
          intro path
          cases path with
          | nil => simp [DynValue.valueAt, DynValue.shape_of_scalar, before, after]
          | cons step path => rw [below]
        undeclared := by
          intro path none
          cases path with
          | nil => cases none
          | cons step path => exact below step path
        changes := by
          intro path a b old new _
          cases path with
          | nil =>
              cases old
              cases new
              exact .inr ⟨spec, rfl, conversion, List.mem_singleton_self _⟩
          | cons step path =>
              rw [DynValue.valueAt_of_scalar before] at old
              cases old
        required := no_object_below object array val }

/-! ## Containers -/

theorem declaredType_of_objectItems {spec itemSpec : DynEntries F X}
    (items : objectItems spec = some itemSpec) : declaredType itemSpec = .object := by
  rw [objectItems] at items
  split at items
  · split at items
    · next type =>
      cases items
      rw [declaredType]
      cases found : Entries.get (.text "type") itemSpec with
      | none =>
          rw [found] at type
          cases type
      | some value =>
          rw [found] at type
          cases value with
          | str name =>
              have same : name = "object" := by simpa [DynValue.isStr] using type
              rw [same]
              rfl
          | none | bool | int | float | list | dict | other => cases type
    · cases items
  · cases items

/-- Schemas that are not gone into ask for nothing. -/
theorem requires_nothing {spec : DynEntries F X} (outside : goesInto rt spec = false)
    (entries : DynEntries F X) : HasRequired rt spec entries := by
  intro required found key member
  simp only [goesInto, found, Bool.or_eq_false_iff, Option.any_some] at outside
  cases required with
  | nil => cases member
  | cons first rest => simp [DynRuntime.truthy] at outside

theorem propertySpec_of_outside {spec : DynEntries F X} (outside : goesInto rt spec = false)
    (key : DynKey X) : propertySpec spec key = none := by
  simp only [goesInto, Bool.or_eq_false_iff] at outside
  rw [propertySpec, propertiesOf]
  cases found : Entries.get (.text "properties") spec with
  | none => rfl
  | some value =>
      cases value with
      | dict properties =>
          have empty : properties = [] := by
            simpa [found, DynRuntime.truthy] using outside.1
          rw [empty]
          rfl
      | none | bool | int | float | str | list | other => rfl

/-- An object that is checked as `checkObject` checks it keeps what the schema is about. -/
def ObjectPreserved (rt : DynRuntime F X) (schema entries : DynEntries F X) (fieldName : String)
    (result : Checked (DynEntries F X)) : Prop :=
  Preserves rt (declaredAt schema) fieldName (.dict entries) (.dict result.target) result.notes ∧
    HasRequired rt schema entries

/-- The paths of an object of declared type are the paths of its schema. -/
theorem ObjectPreserved.value {spec entries : DynEntries F X} {result : Checked (DynEntries F X)}
    (preserved : ObjectPreserved rt spec entries fieldName result)
    (type : declaredType spec = .object) :
    Preserves rt (specAt (.dict spec)) fieldName (.dict entries) (.dict result.target)
      result.notes := by
  have same : specAt (.dict spec) = declaredAt spec := by
    funext path
    cases path with
    | nil => rfl
    | cons step path =>
        cases step with
        | key k => rw [specAt, if_pos type, declaredAt]
        | index i =>
            have array : declaredType spec ≠ .array := by rw [type]; decide
            rw [specAt, if_neg array, declaredAt]
  rw [same]
  exact preserved.1

section Values

variable {validator : ToolCallValidator} {spec : DynEntries F X}
  {checkObject : DynEntries F X → DynEntries F X → String → Checked (DynEntries F X)}

theorem preserves_items {itemSpec : DynEntries F X} (type : declaredType spec = .array)
    (itemsOf : objectItems spec = some itemSpec)
    (objects : ∀ entries name, (checkObject itemSpec entries name).verdict = .accepted →
      ObjectPreserved rt itemSpec entries name (checkObject itemSpec entries name))
    {items : List (DynValue F X)}
    (accepted : (checkItems rt (checkObject itemSpec) fieldName 0 items).verdict = .accepted) :
    Preserves rt (specAt (.dict spec)) fieldName (.list items)
      (.list (checkItems rt (checkObject itemSpec) fieldName 0 items).target)
      (checkItems rt (checkObject itemSpec) fieldName 0 items).notes := by
  have length := checkItems_length rt (checkObject itemSpec) fieldName 0 items
  apply Preserves.of_steps
  · rfl
  · exact congrArg DynValue.Shape.list length
  · rfl
  · intro _ entries _ _ list
    cases list
  · intro step
    cases step with
    | key k => exact .inl ⟨rfl, rfl⟩
    | index i =>
        cases here : items[i]? with
        | none =>
            left
            constructor
            · exact here
            · rw [List.getElem?_eq_none_iff] at here
              exact List.getElem?_eq_none_iff.mpr (by omega)
        | some item =>
            right
            obtain ⟨entries, rfl, item⟩ := checkItems_accepted accepted here
            have paths : (fun path => specAt (.dict spec) (.index i :: path)) =
                specAt (.dict itemSpec) := by
              funext path
              rw [specAt, if_pos type, itemsOf, Option.bind_some]
            rw [Nat.zero_add] at item
            have inner := (objects entries _ item.accepted).value
              (declaredType_of_objectItems itemsOf)
            exact ⟨_, _, here, item.leaves, paths ▸ inner.notes_mono item.notes⟩

/-- What is accepted under the schema of a property is preserved along its paths. -/
theorem preserves_value
    (objects : ∀ schema, (DynValue.dict schema).Proper → ∀ entries name,
      (checkObject schema entries name).verdict = .accepted →
        ObjectPreserved rt schema entries name (checkObject schema entries name))
    {propSpec val : DynValue F X} (proper : propSpec.Proper)
    (accepted : (checkValue validator rt checkObject propSpec fieldName val).verdict = .accepted) :
    Preserves rt (specAt propSpec) fieldName val
      (checkValue validator rt checkObject propSpec fieldName val).target
      (checkValue validator rt checkObject propSpec fieldName val).notes := by
  cases propSpec with
  | dict spec =>
      cases type : declaredType spec with
      | integer | number | boolean | string =>
          have scalar := congrArg (scalarCheck validator rt fieldName) type
          rw [checkValue_scalar scalar] at accepted ⊢
          exact preserves_scalar scalar accepted
      | other =>
          simp only [checkValue, type]
          exact .same (no_object_below (by simp [type]) (by simp [type]) val)
      | array =>
          simp only [checkValue, type] at accepted ⊢
          cases val with
          | list items =>
              cases itemsOf : objectItems spec with
              | some itemSpec =>
                  simp only [itemsOf] at accepted ⊢
                  exact preserves_items type itemsOf (objects itemSpec (items_proper proper itemsOf))
                    accepted
              | none =>
                  apply Preserves.same
                  intro path inner entries declared object
                  cases path with
                  | nil =>
                      cases declared
                      simp [type] at object
                  | cons step path =>
                      cases step with
                      | key k => simp [specAt, type] at declared
                      | index i => simp [specAt, type, itemsOf] at declared
          | none | bool | int | float | str | dict | other => cases accepted
      | object =>
          simp only [checkValue, type] at accepted ⊢
          cases val with
          | dict entries =>
              cases inside : goesInto rt spec with
              | true =>
                  simp only [inside, if_true] at accepted ⊢
                  exact (objects spec proper entries fieldName accepted).value type
              | false =>
                  apply Preserves.same
                  intro path inner found declared object here
                  cases path with
                  | nil =>
                      cases declared
                      exact requires_nothing inside found
                  | cons step path =>
                      cases step with
                      | key k => simp [specAt, type, propertySpec_of_outside inside] at declared
                      | index i => simp [specAt, type] at declared
          | none | bool | int | float | str | list | other => cases accepted
  | none | bool | int | float | str | list | other => cases accepted

end Values

/-! ## Objects -/

/-- All required keys of an object with its keys in order are there. -/
theorem hasRequired_of_checkKeys {schema entries : DynEntries F X} {pathPrefix : String}
    (inOrder : checkKeys rt schema entries pathPrefix = .accepted) :
    HasRequired rt schema entries := by
  intro required found
  have itemsOf : rt.items (requiredOf schema) = some required := by
    simp [requiredOf, found, DynRuntime.items]
  obtain ⟨keys, same, present, _⟩ := checkKeys_accepted_iff.mp inOrder
  rw [itemsOf] at same
  cases same
  exact present

theorem objectPreserved {validator : ToolCallValidator} (depth : Nat) (schema : DynEntries F X)
    (proper : (DynValue.dict schema).Proper) (target : DynEntries F X) (pathPrefix : String)
    (accepted : (validateSchema validator rt depth schema target pathPrefix).verdict = .accepted) :
    ObjectPreserved rt schema target pathPrefix
      (validateSchema validator rt depth schema target pathPrefix) := by
  induction depth generalizing schema target pathPrefix with
  | zero => cases accepted
  | succ depth ih =>
      obtain ⟨inner, properties, same, inOrder, declared, whole⟩ := validateSchema_accepted accepted
      cases same
      have required := hasRequired_of_checkKeys inOrder
      rw [whole] at accepted ⊢
      have keys := checkProperties_keys rt (checkValue validator rt (validateSchema validator rt depth))
        pathPrefix properties target
      constructor
      swap
      · exact required
      apply Preserves.of_steps
      · rfl
      · exact congrArg DynValue.Shape.dict keys
      · rfl
      · intro spec entries root _ same
        cases root
        cases same
        exact required
      · intro step
        cases step with
        | index i => exact .inl ⟨rfl, rfl⟩
        | key k =>
            cases here : Entries.get k target with
            | none =>
                left
                constructor
                · exact here
                · rw [Entries.get_eq_none_iff] at here
                  exact Entries.get_eq_none_iff.mpr (keys ▸ here)
            | some val =>
                right
                have paths : (fun path => declaredAt schema (.key k :: path)) =
                    fun path => (Entries.get k properties).bind fun spec => specAt spec path := by
                  funext path
                  simp only [declaredAt, propertySpec, declared]
                cases specOf : Entries.get k properties with
                | none =>
                    have untouched := checkProperties_untouched rt
                      (checkValue validator rt (validateSchema validator rt depth)) pathPrefix
                      (Entries.get_eq_none_iff.mp specOf) target
                    refine ⟨val, val, here, untouched.trans here, ?_⟩
                    rw [paths, specOf]
                    apply Preserves.same
                    intro path spec entries impossible
                    cases impossible
                | some spec =>
                    have member := Entries.mem_of_get specOf
                    have each := checkProperties_accepted (properties_distinct proper declared)
                      accepted member here
                    have value := preserves_value (fun schema proper entries name =>
                      ih schema proper entries name) (property_proper proper declared member)
                      each.accepted
                    refine ⟨val, _, here, each.leaves, ?_⟩
                    rw [paths, specOf]
                    exact value.notes_mono each.notes

/-! ## Calls -/

/-- The schema that a path leads to, if the call comes with a schema. -/
def specsOf (rt : DynRuntime F X) (schema : Option (ToolSchema F X)) (path : DynPath X) :
    Option (DynValue F X) :=
  match schemaParams rt schema with
  | some (.dict params) => declaredAt params path
  | _ => none

theorem schemaParams_proper {schema : Option (ToolSchema F X)} {params : DynEntries F X}
    (found : schemaParams rt schema = some (.dict params)) : (DynValue.dict params).Proper := by
  cases schema with
  | none => cases found
  | some schema =>
      simp only [schemaParams] at found
      split at found
      · cases found
      · split at found
        · next parameters here =>
          split at found
          · cases found
            exact schema.proper.2.mem (Entries.mem_of_get here)
          · cases found
            exact schema.proper
        · cases found
          exact schema.proper

/-- An envelope is the only member of its object. -/
theorem unwrapped_cases {validator : ToolCallValidator} {params parsed base : DynEntries F X}
    {notes : List String} (handed : unwrapped validator rt params parsed = .ok (base, notes)) :
    (base = parsed ∧ notes = []) ∨ ∃ wrapper ∈ wrappers, parsed = [(.text wrapper, .dict base)] ∧
      notes = ["unwrap_" ++ wrapper ++ "_envelope"] ∧
      holdsKey rt (propertiesOf params) (.text wrapper) = .ok false := by
  rw [unwrapped] at handed
  split at handed
  · generalize wrappers = names at handed
    induction names with
    | nil =>
        cases handed
        exact .inl ⟨rfl, rfl⟩
    | cons wrapper names ih =>
        have later (rest : unwrapEnvelope rt (propertiesOf params) parsed names = .ok (base, notes)) :
            (base = parsed ∧ notes = []) ∨ ∃ name ∈ wrapper :: names,
              parsed = [(.text name, .dict base)] ∧ notes = ["unwrap_" ++ name ++ "_envelope"] ∧
              holdsKey rt (propertiesOf params) (.text name) = .ok false :=
          (ih rest).imp_right fun ⟨name, member, found⟩ =>
            ⟨name, List.mem_cons_of_mem wrapper member, found⟩
        rw [unwrapEnvelope] at handed
        cases wrapped : envelope wrapper parsed with
        | none =>
            simp only [wrapped] at handed
            exact later handed
        | some inner =>
            simp only [wrapped] at handed
            cases declared : holdsKey rt (propertiesOf params) (.text wrapper) with
            | error error => simp [declared, bind, Except.bind] at handed
            | ok held =>
                cases held with
                | true =>
                    simp only [declared, bind, Except.bind, if_true] at handed
                    exact later handed
                | false =>
                    simp only [declared, bind, Except.bind, pure, Except.pure] at handed
                    cases handed
                    refine .inr ⟨wrapper, List.mem_cons_self, ?_, rfl, declared⟩
                    rw [envelope.eq_def] at wrapped
                    split at wrapped
                    · next key value =>
                      split at wrapped
                      · next same =>
                        cases wrapped
                        rw [same]
                      · cases wrapped
                    · cases wrapped
  · cases handed
    exact .inl ⟨rfl, rfl⟩

/-- What an executable report says of the object handed in, or of the one inside
    the envelope that was taken off: everything is as it was but for recorded
    conversions of declared scalars, and no required key is missing. -/
theorem validated_arguments_preserved (validator : ToolCallValidator) (rt : DynRuntime F X)
    (toolName : String) (given : DynEntries F X) (schema : Option (ToolSchema F X))
    (known : Option (List String)) {report : ToolCallReport F X}
    (returned : (validateToolCall validator rt toolName (.dict given) schema known).result =
      .ok report)
    (executable : report.isExecutable = true) :
    ∃ base,
      (base = given ∨ ∃ wrapper ∈ wrappers, given = [(.text wrapper, .dict base)] ∧
        "unwrap_" ++ wrapper ++ "_envelope" ∈ report.normalizationsApplied) ∧
      Preserves rt (specsOf rt schema) "" (.dict base) (.dict report.validatedArguments)
        report.normalizationsApplied ∧
      ∀ params, schemaParams rt schema = some (.dict params) → HasRequired rt params base := by
  obtain ⟨raw, parsed, repairs, _, _, parsing, ran⟩ := executable_cases returned executable
  cases parsing
  cases ran with
  | unchecked noSchema arguments normalizations =>
      refine ⟨given, .inl rfl, ?_, ?_⟩
      · rw [arguments]
        apply Preserves.same
        intro path spec entries declared
        simp [specsOf, noSchema] at declared
      · intro params found
        rw [noSchema] at found
        cases found
  | @checked params base unwrapping checkedBy handed accepted arguments normalizations =>
      have preserved := objectPreserved _ params (schemaParams_proper checkedBy) base "" accepted
      have paths : specsOf rt schema = declaredAt params := by
        funext path
        simp [specsOf, checkedBy]
      refine ⟨base, ?_, ?_, ?_⟩
      · obtain ⟨same, _⟩ | ⟨wrapper, member, whole, note, _⟩ := unwrapped_cases handed
        · exact .inl same
        · right
          refine ⟨wrapper, member, whole, ?_⟩
          rw [normalizations, note]
          simp
      · rw [paths, arguments, normalizations]
        exact preserved.1.notes_mono (List.subset_append_right _ _)
      · intro other found
        rw [checkedBy] at found
        cases found
        exact preserved.2

/-- One declared property, a required integer. -/
def countSchema : ToolSchema String Empty where
  members :=
    [(.text "properties", .dict [(.text "count", .dict [(.text "type", .str "integer")])]),
      (.text "required", .list [.str "count"])]
  proper := by simp [DynValue.Proper, DynValue.ProperEntries, DynValue.ProperItems, Entries.keys]

def countArguments : DynEntries String Empty := [(.text "count", .str "5")]

def countReport : ToolCallReport String Empty where
  toolName := "wait"
  status := .normalized
  validatedArguments := [(.text "count", .int 5)]
  rawArguments := "\x7b\"count\": \"5\"\x7d"
  normalizationsApplied := ["coerce_count_str_to_int"]

theorem validated_arguments_preserved_count :
    ∃ base,
      (base = countArguments ∨ ∃ wrapper ∈ wrappers,
        countArguments = [(.text wrapper, .dict base)] ∧
          "unwrap_" ++ wrapper ++ "_envelope" ∈ countReport.normalizationsApplied) ∧
      Preserves .ascii (specsOf .ascii (some countSchema)) "" (.dict base)
        (.dict countReport.validatedArguments) countReport.normalizationsApplied ∧
      ∀ params, schemaParams .ascii (some countSchema) = some (.dict params) →
        HasRequired .ascii params base := by
  have returned : (validateToolCall {} .ascii "wait" (.dict countArguments)
      (some countSchema) none).result = .ok countReport := rfl
  exact validated_arguments_preserved {} .ascii "wait" _ (some countSchema) none returned rfl

end DuraLLM
