import DuraLLM.Agent.ToolValidation

/-! # What an accepted check went through

Each loop of the validator stops at the first value it does not accept.  So an
accepted object had every declared value accepted on its own, and every item of
its arrays.  What is not declared is not touched, whether the object is accepted
or not.
-/

namespace DuraLLM

variable {F X : Type} [DecidableEq X]

/-! ## Scalars -/

/-- A conversion between text, number and truth value, to the declared type. -/
inductive Conversion (rt : DynRuntime F X) : DeclaredType → DynValue F X → DynValue F X → Prop where
  | integer {text : String} {n : Int} (digits : rt.isDigitText text = true)
      (read : rt.intOfDigits text = some n) : Conversion rt .integer (.str text) (.int n)
  | number {text : String} {f : F} (read : rt.parseFloat text = some f) :
      Conversion rt .number (.str text) (.float f)
  | boolean {text : String} (word : text.toLower = "true" ∨ text.toLower = "false") :
      Conversion rt .boolean (.str text) (.bool (text.toLower = "true"))
  | truthText (b : Bool) : Conversion rt .string (.bool b) (.str (if b then "True" else "False"))
  | integerText {n : Int} {text : String} (written : rt.intStr n = some text) :
      Conversion rt .string (.int n) (.str text)
  | floatText (f : F) : Conversion rt .string (.float f) (.str (rt.floatStr f))

/-- How the note of a conversion ends. -/
def DeclaredType.conversionName : DeclaredType → String
  | .integer => "_str_to_int"
  | .number => "_str_to_number"
  | .boolean => "_str_to_bool"
  | .string => "_to_str"
  | _ => ""

def conversionNote (fieldName : String) (type : DeclaredType) : String :=
  "coerce_" ++ fieldName ++ type.conversionName

/-- The check of each scalar type. -/
def scalarCheck (validator : ToolCallValidator) (rt : DynRuntime F X) (fieldName : String) :
    DeclaredType → Option (DynValue F X → ScalarCheck F X)
  | .integer => some (checkInteger validator rt fieldName)
  | .number => some (checkNumber validator rt fieldName)
  | .boolean => some (checkBoolean validator rt fieldName)
  | .string => some (checkString validator rt fieldName)
  | _ => none

/-- The values that a scalar type takes as they are. -/
def fits : DeclaredType → DynValue F X → Bool
  | .integer, .int _ | .integer, .bool _ => true
  | .number, .int _ | .number, .bool _ | .number, .float _ => true
  | .boolean, .bool _ => true
  | .string, .str _ => true
  | _, _ => false

section Scalars

variable {validator : ToolCallValidator} {rt : DynRuntime F X} {fieldName : String}
  {type : DeclaredType} {check : DynValue F X → ScalarCheck F X} {val value : DynValue F X}
  {how : String}

omit [DecidableEq X] in
theorem Conversion.scalars (conversion : Conversion rt type val value) :
    val.isContainer = false ∧ value.isContainer = false := by
  cases conversion <;> exact ⟨rfl, rfl⟩

omit [DecidableEq X] in
theorem Conversion.ne (conversion : Conversion rt type val value) : value ≠ val := by
  cases conversion <;> exact fun same => by cases same

omit [DecidableEq X] in
/-- A scalar check converts along the table of conversions. -/
theorem conversion_of_scalarCheck (scalar : scalarCheck validator rt fieldName type = some check)
    (converted : check val = .converts value how) :
    Conversion rt type val value ∧ how = type.conversionName := by
  cases type with
  | integer =>
      cases scalar
      cases val <;> simp only [checkInteger, mismatch, reduceCtorEq] at converted
      split at converted
      · next digits =>
        split at converted
        · next n read =>
          cases converted
          exact ⟨.integer (Bool.and_eq_true_iff.mp digits).1 read, rfl⟩
        · cases converted
      · cases converted
  | number =>
      cases scalar
      cases val <;> simp only [checkNumber, mismatch, reduceCtorEq] at converted
      split at converted
      · split at converted
        · next f read =>
          cases converted
          exact ⟨.number read, rfl⟩
        · cases converted
      · cases converted
  | boolean =>
      cases scalar
      cases val <;> simp only [checkBoolean, mismatch, reduceCtorEq] at converted
      split at converted
      · next word =>
        cases converted
        exact ⟨.boolean word.1, rfl⟩
      · cases converted
  | string =>
      cases scalar
      cases val <;> simp only [checkString, mismatch, reduceCtorEq] at converted
      case bool b =>
        split at converted
        · cases converted
          exact ⟨.truthText b, rfl⟩
        · cases converted
      case int n =>
        split at converted
        · split at converted
          · next text written =>
            cases converted
            exact ⟨.integerText written, rfl⟩
          · cases converted
        · cases converted
      case float f =>
        split at converted
        · cases converted
          exact ⟨.floatText f, rfl⟩
        · cases converted
  | array | object | other => cases scalar

omit [DecidableEq X] in
theorem keeps_iff (scalar : scalarCheck validator rt fieldName type = some check) :
    check val = .keeps ↔ fits type val = true := by
  cases type with
  | integer =>
      cases scalar
      cases val <;> simp only [checkInteger, mismatch, fits, reduceCtorEq]
      split
      · split <;> simp
      · simp
  | number =>
      cases scalar
      cases val <;> simp only [checkNumber, mismatch, fits, reduceCtorEq]
      split
      · split <;> simp
      · simp
  | boolean =>
      cases scalar
      cases val <;> simp only [checkBoolean, mismatch, fits, reduceCtorEq]
      split <;> simp
  | string =>
      cases scalar
      cases val <;> simp only [checkString, mismatch, fits, reduceCtorEq]
      case bool => split <;> simp
      case int =>
        split
        · split <;> simp
        · simp
      case float => split <;> simp
  | array | object | other => cases scalar

omit [DecidableEq X] in
/-- What a conversion gives is kept by every later check. -/
theorem Conversion.fits (conversion : Conversion rt type val value) : fits type value = true := by
  cases conversion <;> rfl

omit [DecidableEq X] in
/-- The fields of a scalar type all have its check. -/
theorem scalarCheck_elsewhere (scalar : scalarCheck validator rt fieldName type = some check)
    (other : String) : ∃ again, scalarCheck validator rt other type = some again := by
  cases type with
  | integer | number | boolean | string => exact ⟨_, rfl⟩
  | array | object | other => cases scalar

/-- A declared scalar is checked by the check of its type. -/
theorem checkValue_scalar
    {checkObject : DynEntries F X → DynEntries F X → String → Checked (DynEntries F X)}
    {spec : DynEntries F X}
    (scalar : scalarCheck validator rt fieldName (declaredType spec) = some check) :
    checkValue validator rt checkObject (.dict spec) fieldName val =
      (check val).checked fieldName val := by
  cases declared : declaredType spec with
  | integer | number | boolean | string =>
      rw [declared] at scalar
      cases scalar
      simp only [checkValue, declared]
  | array | object | other =>
      rw [declared] at scalar
      cases scalar

omit [DecidableEq X] in
/-- An accepted scalar stays or is converted, and the conversion is noted. -/
theorem ScalarCheck.of_accepted (accepted : ((check val).checked fieldName val).verdict = .accepted) :
    (check val = .keeps ∧ (check val).checked fieldName val = { target := val }) ∨
      ∃ value how, check val = .converts value how ∧ (check val).checked fieldName val =
        { target := value, notes := ["coerce_" ++ fieldName ++ how] } := by
  cases outcome : check val with
  | keeps => exact .inl ⟨rfl, rfl⟩
  | converts value how => exact .inr ⟨value, how, rfl, rfl⟩
  | refuses message =>
      rw [outcome] at accepted
      cases accepted
  | raises error =>
      rw [outcome] at accepted
      cases accepted

end Scalars

/-! ## Properties -/

section Loops

variable {rt : DynRuntime F X}
  {check : DynValue F X → String → DynValue F X → Checked (DynValue F X)}
  {pathPrefix : String}

variable (rt) (check) (pathPrefix) in
/-- Every key keeps its place. -/
theorem checkProperties_keys (properties target : DynEntries F X) :
    Entries.keys (checkProperties rt check pathPrefix properties target).target =
      Entries.keys target := by
  induction properties generalizing target with
  | nil => rfl
  | cons property properties ih =>
      obtain ⟨name, spec⟩ := property
      rw [checkProperties]
      cases found : Entries.get name target with
      | none => exact ih target
      | some val =>
          have kept : Entries.keys (Entries.set name
              (check spec (fieldOf rt pathPrefix name) val).target target) = Entries.keys target :=
            Entries.keys_set (by rw [found]; rfl) _
          simp only
          split
          · exact (ih _).trans kept
          · exact kept

variable (rt) (check) (pathPrefix) in
/-- What is not declared is not touched. -/
theorem checkProperties_untouched {properties : DynEntries F X} {key : DynKey X}
    (undeclared : key ∉ Entries.keys properties) (target : DynEntries F X) :
    Entries.get key (checkProperties rt check pathPrefix properties target).target =
      Entries.get key target := by
  induction properties generalizing target with
  | nil => rfl
  | cons property properties ih =>
      obtain ⟨name, spec⟩ := property
      obtain ⟨different, later⟩ : key ≠ name ∧ key ∉ Entries.keys properties := by
        simpa [Entries.keys] using undeclared
      rw [checkProperties]
      cases found : Entries.get name target with
      | none => exact ih later target
      | some val =>
          have kept := Entries.get_set_of_ne different
            (check spec (fieldOf rt pathPrefix name) val).target target
          simp only
          split
          · exact (ih later _).trans kept
          · exact kept

/-- The check of one declared value, which an accepted object has behind it. -/
structure PropertyAccepted (rt : DynRuntime F X)
    (check : DynValue F X → String → DynValue F X → Checked (DynValue F X)) (pathPrefix : String)
    (result : Checked (DynEntries F X)) (key : DynKey X) (spec val : DynValue F X) : Prop where
  accepted : (check spec (fieldOf rt pathPrefix key) val).verdict = .accepted
  leaves : Entries.get key result.target =
    some (check spec (fieldOf rt pathPrefix key) val).target
  notes : (check spec (fieldOf rt pathPrefix key) val).notes ⊆ result.notes

theorem checkProperties_accepted {properties target : DynEntries F X}
    (distinct : (Entries.keys properties).Nodup)
    (accepted : (checkProperties rt check pathPrefix properties target).verdict = .accepted)
    {key : DynKey X} {spec val : DynValue F X} (declared : (key, spec) ∈ properties)
    (present : Entries.get key target = some val) :
    PropertyAccepted rt check pathPrefix (checkProperties rt check pathPrefix properties target)
      key spec val := by
  induction properties generalizing target with
  | nil => cases declared
  | cons property properties ih =>
      obtain ⟨name, other⟩ := property
      obtain ⟨fresh, distinct⟩ := List.nodup_cons.mp distinct
      rw [checkProperties] at accepted ⊢
      cases List.mem_cons.mp declared with
      | inl here =>
          cases here
          simp only [present] at accepted ⊢
          cases verdict : (check spec (fieldOf rt pathPrefix key) val).verdict with
          | accepted =>
              exact
                { accepted := verdict
                  leaves := (checkProperties_untouched rt check pathPrefix fresh _).trans (Entries.get_set_self _ _ _)
                  notes := List.subset_append_left _ _ }
          | rejected message => simp [verdict] at accepted
          | raised error => simp [verdict] at accepted
      | inr later =>
          have different : key ≠ name := by
            intro same
            subst same
            exact fresh (List.mem_map.mpr ⟨_, later, rfl⟩)
          cases found : Entries.get name target with
          | none =>
              simp only [found] at accepted
              exact ih distinct accepted later present
          | some first =>
              simp only [found] at accepted ⊢
              cases verdict : (check other (fieldOf rt pathPrefix name) first).verdict with
              | accepted =>
                  simp only [verdict] at accepted ⊢
                  have rest := ih distinct accepted later
                    ((Entries.get_set_of_ne different _ _).trans present)
                  exact
                    { accepted := rest.accepted
                      leaves := rest.leaves
                      notes := List.Subset.trans rest.notes (List.subset_append_right _ _) }
              | rejected message => simp [verdict] at accepted
              | raised error => simp [verdict] at accepted

/-- Where every declared value stays as it is, so does the object. -/
theorem checkProperties_settled {properties target : DynEntries F X}
    (settled : ∀ key spec, (key, spec) ∈ properties → ∀ val, Entries.get key target = some val →
      check spec (fieldOf rt pathPrefix key) val = { target := val }) :
    checkProperties rt check pathPrefix properties target = { target } := by
  induction properties with
  | nil => rfl
  | cons property properties ih =>
      obtain ⟨name, spec⟩ := property
      have rest := ih fun key spec declared => settled key spec (List.mem_cons_of_mem _ declared)
      rw [checkProperties]
      cases found : Entries.get name target with
      | none => exact rest
      | some val =>
          simp only [settled name spec List.mem_cons_self val found, Entries.set_get found, rest,
            List.append_nil]

/-! ## Items -/

section Items

variable {checkObject : DynEntries F X → String → Checked (DynEntries F X)} {fieldName : String}

omit [DecidableEq X] in
variable (rt) (checkObject) (fieldName) in
theorem checkItems_length (index : Nat) (items : List (DynValue F X)) :
    (checkItems rt checkObject fieldName index items).target.length = items.length := by
  induction items generalizing index with
  | nil => rfl
  | cons item items ih =>
      cases item with
      | dict entries =>
          rw [checkItems]
          split
          · exact congrArg (· + 1) (ih (index + 1))
          · rfl
      | none | bool | int | float | str | list | other => rfl

/-- The check of one item, which an accepted array has behind it. -/
structure ItemAccepted (checkObject : DynEntries F X → String → Checked (DynEntries F X))
    (itemName : String) (result : Checked (List (DynValue F X))) (i : Nat)
    (entries : DynEntries F X) : Prop where
  accepted : (checkObject entries itemName).verdict = .accepted
  leaves : result.target[i]? = some (.dict (checkObject entries itemName).target)
  notes : (checkObject entries itemName).notes ⊆ result.notes

omit [DecidableEq X] in
theorem checkItems_accepted {index : Nat} {items : List (DynValue F X)}
    (accepted : (checkItems rt checkObject fieldName index items).verdict = .accepted)
    {i : Nat} {item : DynValue F X} (here : items[i]? = some item) :
    ∃ entries, item = .dict entries ∧ ItemAccepted checkObject (itemField fieldName (index + i))
      (checkItems rt checkObject fieldName index items) i entries := by
  induction items generalizing index i with
  | nil => cases here
  | cons first items ih =>
      cases first with
      | dict entries =>
          rw [checkItems] at accepted ⊢
          cases verdict : (checkObject entries (itemField fieldName index)).verdict with
          | accepted =>
              simp only [verdict] at accepted ⊢
              cases i with
              | zero =>
                  cases here
                  exact ⟨entries, rfl,
                    { accepted := verdict
                      leaves := rfl
                      notes := List.subset_append_left _ _ }⟩
              | succ i =>
                  obtain ⟨inner, same, rest⟩ := ih accepted here
                  rw [Nat.add_right_comm, Nat.add_assoc] at rest
                  exact ⟨inner, same,
                    { accepted := rest.accepted
                      leaves := rest.leaves
                      notes := List.Subset.trans rest.notes (List.subset_append_right _ _) }⟩
          | rejected message => simp [verdict] at accepted
          | raised error => simp [verdict] at accepted
      | none | bool | int | float | str | list | other => cases accepted

omit [DecidableEq X] in
theorem checkItems_settled {items : List (DynValue F X)}
    (settled : ∀ item ∈ items, ∃ entries, item = .dict entries ∧
      ∀ itemName, checkObject entries itemName = { target := entries }) (index : Nat) :
    checkItems rt checkObject fieldName index items = { target := items } := by
  induction items generalizing index with
  | nil => rfl
  | cons item items ih =>
      obtain ⟨entries, rfl, unchanged⟩ := settled item List.mem_cons_self
      have rest := ih (fun other later => settled other (List.mem_cons_of_mem _ later)) (index + 1)
      rw [checkItems]
      simp only [unchanged, rest, List.append_nil]

end Items

end Loops

/-! ## Objects -/

section Objects

variable {validator : ToolCallValidator} {rt : DynRuntime F X} {depth : Nat}
  {schema target : DynEntries F X} {pathPrefix : String}

omit [DecidableEq X] in
theorem lacking_eq_nil_iff {α : Type} {held : α → Except DynError Bool} {values : List α} :
    lacking held values = .ok [] ↔ ∀ value ∈ values, held value = .ok true := by
  induction values with
  | nil => simp [lacking]
  | cons first values ih =>
      rw [lacking, List.forall_mem_cons, ← ih]
      cases held first with
      | error error => simp [bind, Except.bind]
      | ok here =>
          cases lacking held values with
          | error error => simp [bind, Except.bind]
          | ok rest => cases here <;> simp [bind, Except.bind, pure, Except.pure]

/-- The keys of an object are in order: all required ones are there, and no others
    where the schema is closed to them. -/
theorem checkKeys_accepted_iff :
    checkKeys rt schema target pathPrefix = .accepted ↔
      ∃ required, rt.items (requiredOf schema) = some required ∧
        (∀ key ∈ required, presentIn rt target key = .ok true) ∧
        (closedToExtras schema = true → ∀ key ∈ Entries.keys target,
          holdsKey rt (propertiesOf schema) key = .ok true) := by
  rw [checkKeys.eq_def]
  cases rt.items (requiredOf schema) with
  | none => simp
  | some required =>
      simp only [Option.some.injEq, exists_eq_left', ← lacking_eq_nil_iff]
      cases lacking (presentIn rt target) required with
      | error error => simp
      | ok missing =>
          cases missing with
          | cons key missing => simp
          | nil =>
              cases closedToExtras schema with
              | false => simp
              | true =>
                  simp only [if_true, true_and, forall_const]
                  cases lacking (holdsKey rt (propertiesOf schema)) (Entries.keys target) with
                  | error error => simp
                  | ok extra => cases extra <;> simp

/-- An accepted object has its keys in order and went through its properties. -/
theorem validateSchema_accepted
    (accepted : (validateSchema validator rt depth schema target pathPrefix).verdict = .accepted) :
    ∃ inner properties, depth = inner + 1 ∧
      checkKeys rt schema target pathPrefix = .accepted ∧
      propertiesOf schema = .dict properties ∧
      validateSchema validator rt depth schema target pathPrefix =
        checkProperties rt (checkValue validator rt (validateSchema validator rt inner)) pathPrefix
          properties target := by
  cases depth with
  | zero => cases accepted
  | succ inner =>
      rw [validateSchema] at accepted ⊢
      cases keys : checkKeys rt schema target pathPrefix with
      | accepted =>
          simp only [keys] at accepted ⊢
          cases declared : propertiesOf schema with
          | dict properties => exact ⟨inner, properties, rfl, trivial, rfl, rfl⟩
          | none | bool | int | float | str | list | other => simp [declared] at accepted
      | rejected message => simp [keys] at accepted
      | raised error => simp [keys] at accepted

/-- The names of the declared properties are distinct. -/
theorem properties_distinct {properties : DynEntries F X}
    (proper : (DynValue.dict schema).Proper) (declared : propertiesOf schema = .dict properties) :
    (Entries.keys properties).Nodup := by
  rw [propertiesOf] at declared
  cases found : Entries.get (.text "properties") schema with
  | none =>
      rw [found] at declared
      cases declared
      exact List.nodup_nil
  | some value =>
      rw [found] at declared
      cases declared
      exact (proper.2.mem (Entries.mem_of_get found)).1

/-- The schema of a property is as proper as the schema. -/
theorem property_proper {properties : DynEntries F X} {key : DynKey X} {spec : DynValue F X}
    (proper : (DynValue.dict schema).Proper) (declared : propertiesOf schema = .dict properties)
    (member : (key, spec) ∈ properties) : spec.Proper := by
  rw [propertiesOf] at declared
  cases found : Entries.get (.text "properties") schema with
  | none =>
      rw [found] at declared
      cases declared
      cases member
  | some value =>
      rw [found] at declared
      cases declared
      exact (proper.2.mem (Entries.mem_of_get found)).2.mem member

/-- So is the schema of the items. -/
theorem items_proper {spec itemSpec : DynEntries F X} (proper : (DynValue.dict spec).Proper)
    (items : objectItems spec = some itemSpec) : (DynValue.dict itemSpec).Proper := by
  rw [objectItems] at items
  split at items
  · next found =>
    split at items
    · cases items
      exact proper.2.mem (Entries.mem_of_get found)
    · cases items
  · cases items

end Objects

/-! ## Calls -/

section Calls

variable {validator : ToolCallValidator} {rt : DynRuntime F X} {toolName : String}
  {arguments : DynValue F X} {schema : Option (ToolSchema F X)} {known : Option (List String)}

/-- What an executable report comes from. -/
inductive Executable (validator : ToolCallValidator) (rt : DynRuntime F X)
    (schema : Option (ToolSchema F X)) (parsed : DynEntries F X) (repairs : List String)
    (report : ToolCallReport F X) : Prop where
  | unchecked (noSchema : schemaParams rt schema = none)
      (arguments : report.validatedArguments = parsed)
      (normalizations : report.normalizationsApplied = repairs)
  | checked {params base : DynEntries F X} {unwrapping : List String}
      (checkedBy : schemaParams rt schema = some (.dict params))
      (handed : unwrapped validator rt params parsed = .ok (base, unwrapping))
      (accepted : (checkRoot validator rt params base).verdict = .accepted)
      (arguments : report.validatedArguments = (checkRoot validator rt params base).target)
      (normalizations : report.normalizationsApplied =
        repairs ++ unwrapping ++ (checkRoot validator rt params base).notes)

theorem executable_of_checkParsed {raw : String} {parsed : DynEntries F X}
    {repairs : List String} {report : ToolCallReport F X}
    (returned : (checkParsed validator rt toolName raw arguments parsed repairs schema).result =
      .ok report)
    (executable : report.isExecutable = true) :
    Executable validator rt schema parsed repairs report := by
  rw [checkParsed] at returned
  cases params : schemaParams rt schema with
  | none =>
      simp only [params, Except.ok.injEq] at returned
      exact .unchecked params (by rw [← returned]) (by rw [← returned])
  | some value =>
      cases value with
      | dict members =>
          simp only [params] at returned
          cases handed : unwrapped validator rt members parsed with
          | error error => simp [handed] at returned
          | ok outcome =>
              obtain ⟨base, unwrapping⟩ := outcome
              simp only [handed] at returned
              cases verdict : (checkRoot validator rt members base).verdict with
              | accepted =>
                  simp only [verdict, Except.ok.injEq] at returned
                  exact .checked params handed verdict (by rw [← returned]) (by rw [← returned])
              | rejected message =>
                  simp only [verdict, Except.ok.injEq] at returned
                  rw [← returned] at executable
                  cases executable
              | raised error => simp [verdict] at returned
      | none | bool | int | float | str | list | other => simp [params] at returned

/-- A report that lets the call through has a parsed object behind it. -/
theorem executable_cases {report : ToolCallReport F X}
    (returned : (validateToolCall validator rt toolName arguments schema known).result = .ok report)
    (executable : report.isExecutable = true) :
    ∃ raw parsed repairs, rawText rt arguments = .ok raw ∧
      known.filter (fun tools => toolName ∉ tools) = none ∧
      parseArguments validator rt arguments = (some parsed, repairs) ∧
      Executable validator rt schema parsed repairs report := by
  rw [validateToolCall] at returned
  cases written : rawText rt arguments with
  | error error => simp [written] at returned
  | ok raw =>
      simp only [written] at returned
      cases catalog : known.filter fun tools => toolName ∉ tools with
      | some tools =>
          simp only [catalog, Except.ok.injEq] at returned
          rw [← returned] at executable
          cases executable
      | none =>
          simp only [catalog] at returned
          cases parsing : parseArguments validator rt arguments with
          | mk outcome repairs =>
              cases outcome with
              | none =>
                  simp only [parsing, Except.ok.injEq] at returned
                  rw [← returned] at executable
                  split at executable <;> cases executable
              | some parsed =>
                  simp only [parsing] at returned
                  exact ⟨raw, parsed, repairs, rfl, rfl, rfl,
                    executable_of_checkParsed returned executable⟩

end Calls

end DuraLLM
