import DuraLLM.Agent.PreservedArguments

/-! # Conformance to the schema

What JSON Schema asks of a value, for schemas made of objects, arrays of objects
and scalars, and how far an accepted object meets it.  The validator passes over
two things: truth values where a number is declared, since they are integers of
the language, and objects whose schema allows no further keys but neither lists
nor requires any, since it does not go into these.
-/

namespace DuraLLM

variable {F X : Type} [DecidableEq X]

/-! ## Schemas and what they ask for -/

/-- The key is one of those that the schema requires. -/
def Requires (spec : DynEntries F X) (key : String) : Prop :=
  ∃ required, Entries.get (.text "required") spec = some (.list required) ∧ .str key ∈ required

/-- A value meets its schema. -/
inductive Conforms : DynValue F X → DynValue F X → Prop where
  | integer {spec : DynEntries F X} {n : Int} (type : declaredType spec = .integer) :
      Conforms (.dict spec) (.int n)
  | wholeNumber {spec : DynEntries F X} {n : Int} (type : declaredType spec = .number) :
      Conforms (.dict spec) (.int n)
  | number {spec : DynEntries F X} {f : F} (type : declaredType spec = .number) :
      Conforms (.dict spec) (.float f)
  | boolean {spec : DynEntries F X} {b : Bool} (type : declaredType spec = .boolean) :
      Conforms (.dict spec) (.bool b)
  | string {spec : DynEntries F X} {s : String} (type : declaredType spec = .string) :
      Conforms (.dict spec) (.str s)
  | array {spec : DynEntries F X} {itemSpec : DynValue F X} {items : List (DynValue F X)}
      (type : declaredType spec = .array)
      (itemsOf : Entries.get (.text "items") spec = some itemSpec)
      (each : ∀ item ∈ items, Conforms itemSpec item) : Conforms (.dict spec) (.list items)
  | object {spec entries : DynEntries F X} (type : declaredType spec = .object)
      (required : ∀ key, Requires spec key → (Entries.get (.text key) entries).isSome)
      (closed : closedToExtras spec = true → ∀ key ∈ Entries.keys entries,
        (propertySpec spec key).isSome)
      (each : ∀ key sub val, propertySpec spec key = some sub →
        Entries.get key entries = some val → Conforms sub val) :
      Conforms (.dict spec) (.dict entries)

section Inversion

variable {spec : DynEntries F X}

@[simp] theorem conforms_int {n : Int} :
    Conforms (.dict spec) (.int n) ↔ declaredType spec = .integer ∨ declaredType spec = .number := by
  constructor
  · intro conforms
    cases conforms with
    | integer type => exact .inl type
    | wholeNumber type => exact .inr type
  · intro types
    cases types with
    | inl type => exact .integer type
    | inr type => exact .wholeNumber type

@[simp] theorem conforms_float {f : F} :
    Conforms (.dict spec) (.float f) ↔ declaredType spec = .number :=
  ⟨fun conforms => by cases conforms; assumption, .number⟩

@[simp] theorem conforms_bool {b : Bool} :
    Conforms (.dict spec) (.bool b) ↔ declaredType spec = .boolean :=
  ⟨fun conforms => by cases conforms; assumption, .boolean⟩

@[simp] theorem conforms_str {s : String} :
    Conforms (.dict spec) (.str s) ↔ declaredType spec = .string :=
  ⟨fun conforms => by cases conforms; assumption, .string⟩

theorem conforms_list {items : List (DynValue F X)} :
    Conforms (.dict spec) (.list items) ↔ declaredType spec = .array ∧
      ∃ itemSpec, Entries.get (.text "items") spec = some itemSpec ∧
        ∀ item ∈ items, Conforms itemSpec item := by
  constructor
  · intro conforms
    cases conforms with
    | array type itemsOf each => exact ⟨type, _, itemsOf, each⟩
  · intro parts
    obtain ⟨type, itemSpec, itemsOf, each⟩ := parts
    exact .array type itemsOf each

theorem conforms_dict {entries : DynEntries F X} :
    Conforms (.dict spec) (.dict entries) ↔ declaredType spec = .object ∧
      (∀ key, Requires spec key → (Entries.get (.text key) entries).isSome) ∧
      (closedToExtras spec = true → ∀ key ∈ Entries.keys entries, (propertySpec spec key).isSome) ∧
      ∀ key sub val, propertySpec spec key = some sub → Entries.get key entries = some val →
        Conforms sub val := by
  constructor
  · intro conforms
    cases conforms with
    | object type required closed each => exact ⟨type, required, closed, each⟩
  · intro parts
    obtain ⟨type, required, closed, each⟩ := parts
    exact .object type required closed each

end Inversion

/-- The schemas with objects, arrays of objects and scalars in them. -/
inductive Supported : DynValue F X → Prop where
  | scalar {spec : DynEntries F X} (type : declaredType spec = .integer ∨
      declaredType spec = .number ∨ declaredType spec = .boolean ∨ declaredType spec = .string) :
      Supported (.dict spec)
  | array {spec itemSpec : DynEntries F X} (type : declaredType spec = .array)
      (itemsOf : Entries.get (.text "items") spec = some (.dict itemSpec))
      (object : declaredType itemSpec = .object) (items : Supported (.dict itemSpec)) :
      Supported (.dict spec)
  | object {spec properties : DynEntries F X} {required : List String}
      (type : declaredType spec = .object) (declared : propertiesOf spec = .dict properties)
      (requires : requiredOf spec = .list (required.map .str))
      (extras : ∀ value, Entries.get (.text "additionalProperties") spec = some value →
        value = .bool false)
      (each : ∀ key sub, (key, sub) ∈ properties → Supported sub) : Supported (.dict spec)

/-! ## The places that are looked at -/

/-- A place that the validator comes to. -/
inductive Place (F X : Type) where
  /-- The keys of an object. -/
  | keys (schema target : DynEntries F X)
  /-- Properties that are not a dictionary. -/
  | noProperties
  /-- A value under the schema of its property; `nested` below the root object. -/
  | value (nested : Bool) (propSpec val : DynValue F X)
  /-- An item that is not an object where objects are declared. -/
  | item (val : DynValue F X)

section Places

variable (rt : DynRuntime F X)

def itemPlaces (below : DynEntries F X → List (Place F X)) : DynValue F X → List (Place F X)
  | .dict entries => below entries
  | item => [.item item]

/-- The places inside a value, if its schema is gone into. -/
def placesInside (below : DynEntries F X → DynEntries F X → List (Place F X))
    (spec : DynEntries F X) (val : DynValue F X) : List (Place F X) :=
  match declaredType spec, val with
  | .array, .list items =>
      match objectItems spec with
      | some itemSpec => items.flatMap (itemPlaces (below itemSpec))
      | none => []
  | .object, .dict entries => if goesInto rt spec then below spec entries else []
  | _, _ => []

def placesOf (below : DynEntries F X → DynEntries F X → List (Place F X)) (nested : Bool)
    (propSpec val : DynValue F X) : List (Place F X) :=
  .value nested propSpec val ::
    match propSpec with
    | .dict spec => placesInside rt below spec val
    | _ => []

def propertyPlaces (below : DynEntries F X → DynEntries F X → List (Place F X)) (nested : Bool)
    (target : DynEntries F X) (property : DynKey X × DynValue F X) : List (Place F X) :=
  match Entries.get property.1 target with
  | none => []
  | some val => placesOf rt below nested property.2 val

/-- The places in an object, in the order in which the validator comes to them. -/
def placesIn : Nat → Bool → DynEntries F X → DynEntries F X → List (Place F X)
  | 0, _, _, _ => []
  | depth + 1, nested, schema, target =>
      .keys schema target ::
        match propertiesOf schema with
        | .dict properties => properties.flatMap (propertyPlaces rt (placesIn depth true) nested target)
        | _ => [.noProperties]

/-- The places in the arguments of a call. -/
def argumentPlaces (params base : DynEntries F X) : List (Place F X) :=
  placesIn rt ((DynValue.dict params).depth + 1) false params base

/-- What the validator passes over: a truth value as a number, and keys of an
    object whose schema allows none. -/
def Flawed : Place F X → Prop
  | .value _ (.dict spec) (.bool _) => declaredType spec = .integer ∨ declaredType spec = .number
  | .value _ (.dict spec) (.dict entries) =>
      declaredType spec = .object ∧ goesInto rt spec = false ∧ closedToExtras spec = true ∧
        entries ≠ []
  | _ => False

end Places

variable {rt : DynRuntime F X} {validator : ToolCallValidator}

theorem placesOf_dict (below : DynEntries F X → DynEntries F X → List (Place F X)) (nested : Bool)
    (spec : DynEntries F X) (val : DynValue F X) :
    placesOf rt below nested (.dict spec) val =
      .value nested (.dict spec) val :: placesInside rt below spec val := rfl

/-- A place in an object is one of its keys or in one of its properties. -/
theorem forall_placesIn {depth : Nat} {nested : Bool} {schema target properties : DynEntries F X}
    (declared : propertiesOf schema = .dict properties) (p : Place F X → Prop) :
    (∀ place ∈ placesIn rt (depth + 1) nested schema target, p place) ↔
      p (.keys schema target) ∧ ∀ key spec, (key, spec) ∈ properties → ∀ val,
        Entries.get key target = some val →
          ∀ place ∈ placesOf rt (placesIn rt depth true) nested spec val, p place := by
  rw [placesIn, declared]
  simp only [List.forall_mem_cons, List.forall_mem_flatMap]
  apply and_congr_right
  intro _
  constructor
  · intro all key spec member val found
    have here := all (key, spec) member
    simp only [propertyPlaces, found] at here
    exact here
  · intro all property member
    rw [propertyPlaces]
    cases found : Entries.get property.1 target with
    | none => simp
    | some val => exact all property.1 property.2 member val found

/-! ## Values -/

theorem conforms_scalar_iff {spec : DynEntries F X} {val : DynValue F X}
    (fit : fits (declaredType spec) val = true) (nested : Bool) :
    Conforms (.dict spec) val ↔ ¬Flawed rt (.value nested (.dict spec) val) := by
  cases type : declaredType spec with
  | integer | number | boolean | string =>
      rw [type] at fit
      cases val <;> simp only [fits, Bool.false_eq_true] at fit <;> simp [Flawed, type]
  | array | object | other =>
      rw [type] at fit
      cases fit

/-- A converted value is of the declared type, and was no truth value where a
    number is declared. -/
theorem conforms_converted {spec : DynEntries F X} {val value : DynValue F X}
    (conversion : Conversion rt (declaredType spec) val value) (nested : Bool) :
    Conforms (.dict spec) value ∧ ¬Flawed rt (.value nested (.dict spec) val) := by
  generalize type : declaredType spec = declared at conversion
  cases conversion <;> simp [Flawed, type]

theorem ofName_object {name : String} (object : DeclaredType.ofName name = .object) :
    name = "object" := by
  unfold DeclaredType.ofName at object
  repeat' split at object
  all_goals first | assumption | cases object

/-- Items of declared type object are what the validator looks for in an array. -/
theorem objectItems_of_declared {spec itemSpec : DynEntries F X}
    (itemsOf : Entries.get (.text "items") spec = some (.dict itemSpec))
    (object : declaredType itemSpec = .object) : objectItems spec = some itemSpec := by
  rw [objectItems, itemsOf]
  rw [declaredType] at object
  split at object
  · next name found =>
    rw [ofName_object object] at found
    simp [found, DynValue.isStr]
  · cases object

section Values

variable {checkObject : DynEntries F X → DynEntries F X → String → Checked (DynEntries F X)}
  {below : DynEntries F X → DynEntries F X → List (Place F X)} {fieldName : String}

/-- An accepted object under its schema conforms unless one of its places is flawed. -/
def ConformsUnlessFlawed (rt : DynRuntime F X)
    (checkObject : DynEntries F X → DynEntries F X → String → Checked (DynEntries F X))
    (below : DynEntries F X → DynEntries F X → List (Place F X)) (schema : DynEntries F X) : Prop :=
  ∀ entries name, (checkObject schema entries name).verdict = .accepted →
    (Conforms (.dict schema) (.dict (checkObject schema entries name).target) ↔
      ∀ place ∈ below schema entries, ¬Flawed rt place)

theorem items_conform_iff {spec itemSpec : DynEntries F X} (type : declaredType spec = .array)
    (itemsOf : Entries.get (.text "items") spec = some (.dict itemSpec))
    (objects : ConformsUnlessFlawed rt checkObject below itemSpec) {items : List (DynValue F X)}
    (accepted : (checkItems rt (checkObject itemSpec) fieldName 0 items).verdict = .accepted) :
    Conforms (.dict spec)
        (.list (checkItems rt (checkObject itemSpec) fieldName 0 items).target) ↔
      ∀ place ∈ items.flatMap (itemPlaces (below itemSpec)), ¬Flawed rt place := by
  have length := checkItems_length rt (checkObject itemSpec) fieldName 0 items
  rw [conforms_list, List.forall_mem_flatMap]
  constructor
  · intro conforms item member
    obtain ⟨_, other, found, each⟩ := conforms
    rw [itemsOf] at found
    cases found
    obtain ⟨i, here⟩ := List.getElem?_of_mem member
    obtain ⟨entries, rfl, inner⟩ := checkItems_accepted accepted here
    exact (objects entries _ inner.accepted).mp (each _ (List.mem_of_getElem? inner.leaves))
  · intro sound
    refine ⟨type, _, itemsOf, ?_⟩
    intro value member
    obtain ⟨i, there⟩ := List.getElem?_of_mem member
    have bound : i < items.length := by
      rw [← length]
      exact (List.getElem?_eq_some_iff.mp there).1
    have here := List.getElem?_eq_getElem bound
    obtain ⟨entries, same, inner⟩ := checkItems_accepted accepted here
    have whole := there.symm.trans inner.leaves
    cases whole
    apply (objects entries _ inner.accepted).mpr
    have places := sound _ (List.mem_of_getElem? here)
    rw [same] at places
    exact places

/-- An object that is not gone into conforms unless it has keys that it must not have. -/
theorem outside_conforms_iff {spec entries : DynEntries F X} (type : declaredType spec = .object)
    (outside : goesInto rt spec = false) (nested : Bool) :
    Conforms (.dict spec) (.dict entries) ↔
      ¬Flawed rt (.value nested (.dict spec) (.dict entries)) := by
  have nothing (key : DynKey X) : propertySpec spec key = none :=
    propertySpec_of_outside outside key
  have free (key : String) : ¬Requires spec key := by
    intro needs
    obtain ⟨keys, found, member⟩ := needs
    simp only [goesInto, found, Bool.or_eq_false_iff, Option.any_some] at outside
    cases keys with
    | nil => cases member
    | cons first rest => simp [DynRuntime.truthy] at outside
  rw [conforms_dict]
  simp only [type, nothing, free, Flawed, outside, true_and, false_implies, implies_true,
    reduceCtorEq, Option.isSome_none, Bool.false_eq_true, and_true]
  cases closed : closedToExtras spec with
  | false => simp
  | true =>
      cases entries with
      | nil => simp [Entries.keys]
      | cons entry entries =>
          simp only [Entries.keys, List.map_cons, List.mem_cons, forall_eq_or_imp, false_and,
            ne_eq, reduceCtorEq, not_false_eq_true, and_true, not_true_eq_false]
          simp

theorem value_conforms_iff
    (objects : ∀ schema, (DynValue.dict schema).Proper → Supported (.dict schema) →
      declaredType schema = .object → ConformsUnlessFlawed rt checkObject below schema)
    {propSpec val : DynValue F X} (proper : propSpec.Proper) (supported : Supported propSpec)
    (accepted : (checkValue validator rt checkObject propSpec fieldName val).verdict = .accepted)
    (nested : Bool) :
    Conforms propSpec (checkValue validator rt checkObject propSpec fieldName val).target ↔
      ∀ place ∈ placesOf rt below nested propSpec val, ¬Flawed rt place := by
  cases supported with
  | @scalar spec scalar =>
      rw [placesOf_dict, List.forall_mem_cons]
      have inside : placesInside rt below spec val = [] := by
        rcases scalar with type | type | type | type <;> simp [placesInside, type]
      have check : ∃ check, scalarCheck validator rt fieldName (declaredType spec) = some check := by
        rcases scalar with type | type | type | type <;> exact ⟨_, by rw [type]; rfl⟩
      obtain ⟨check, scalar⟩ := check
      rw [checkValue_scalar scalar] at accepted ⊢
      simp only [inside, List.not_mem_nil, false_implies, implies_true, and_true]
      obtain ⟨keeps, whole⟩ | ⟨value, how, converted, whole⟩ := ScalarCheck.of_accepted accepted
      · rw [whole]
        exact conforms_scalar_iff ((keeps_iff scalar).mp keeps) nested
      · obtain ⟨conforms, sound⟩ :=
          conforms_converted (conversion_of_scalarCheck scalar converted).1 nested
        rw [whole]
        exact iff_of_true conforms sound
  | @array spec itemSpec type itemsOf object items =>
      have looked := objectItems_of_declared itemsOf object
      simp only [checkValue, type] at accepted ⊢
      cases val with
      | list list =>
          have sound : ¬Flawed rt (.value nested (.dict spec) (.list list)) := id
          simp only [looked] at accepted ⊢
          simp only [placesOf_dict, List.forall_mem_cons, sound, not_false_eq_true, true_and,
            placesInside, type, looked]
          exact items_conform_iff type itemsOf
            (objects itemSpec (items_proper proper looked) items object) accepted
      | none | bool | int | float | str | dict | other => cases accepted
  | @object spec properties required type declared requires extras each =>
      simp only [checkValue, type] at accepted ⊢
      cases val with
      | dict entries =>
          cases inside : goesInto rt spec with
          | true =>
              have sound : ¬Flawed rt (.value nested (.dict spec) (.dict entries)) := by
                simp [Flawed, inside]
              simp only [inside, if_true] at accepted ⊢
              simp only [placesOf_dict, List.forall_mem_cons, sound, not_false_eq_true, true_and,
                placesInside, type, inside, if_true]
              exact objects spec proper (.object type declared requires extras each) type entries
                fieldName accepted
          | false =>
              simp only [placesOf_dict, List.forall_mem_cons, placesInside, type, inside, if_false,
                Bool.false_eq_true, List.not_mem_nil, false_implies, implies_true, and_true]
              exact outside_conforms_iff type inside nested
      | none | bool | int | float | str | list | other => cases accepted

end Values

/-! ## Objects -/

theorem conformsUnlessFlawed (depth : Nat) (schema : DynEntries F X)
    (proper : (DynValue.dict schema).Proper) (supported : Supported (.dict schema))
    (type : declaredType schema = .object) (entries : DynEntries F X) (pathPrefix : String)
    (accepted : (validateSchema validator rt depth schema entries pathPrefix).verdict = .accepted)
    (nested : Bool) :
    Conforms (.dict schema)
        (.dict (validateSchema validator rt depth schema entries pathPrefix).target) ↔
      ∀ place ∈ placesIn rt depth nested schema entries, ¬Flawed rt place := by
  induction depth generalizing schema entries pathPrefix nested with
  | zero => cases accepted
  | succ depth ih =>
      obtain ⟨inner, properties, same, inOrder, declared, whole⟩ := validateSchema_accepted accepted
      cases same
      rw [whole] at accepted ⊢
      have keys := checkProperties_keys rt (checkValue validator rt (validateSchema validator rt depth))
        pathPrefix properties entries
      have distinct := properties_distinct proper declared
      have present {key : DynKey X} {val : DynValue F X}
          (found : Entries.get key (checkProperties rt
            (checkValue validator rt (validateSchema validator rt depth)) pathPrefix properties
            entries).target = some val) : ∃ given, Entries.get key entries = some given := by
        rw [← Option.isSome_iff_exists, Entries.get_isSome_iff, ← keys, ← Entries.get_isSome_iff,
          found]
        rfl
      have schemas : ∀ key spec, (key, spec) ∈ properties → Supported spec := by
        cases supported with
        | scalar types => simp [type] at types
        | array array => simp [type] at array
        | object _ others _ _ each =>
            rw [declared] at others
            cases others
            exact each
      -- One property conforms unless one of its places is flawed.
      have each {key : DynKey X} {spec val : DynValue F X} (member : (key, spec) ∈ properties)
          (here : Entries.get key entries = some val) :
          ∃ new, Entries.get key (checkProperties rt
              (checkValue validator rt (validateSchema validator rt depth)) pathPrefix properties
              entries).target = some new ∧
            (Conforms spec new ↔
              ∀ place ∈ placesOf rt (placesIn rt depth true) nested spec val, ¬Flawed rt place) := by
        have one := checkProperties_accepted distinct accepted member here
        exact ⟨_, one.leaves, value_conforms_iff (fun schema proper supported type entries name
          accepted => ih schema proper supported type entries name accepted true)
          (property_proper proper declared member) (schemas key spec member) one.accepted nested⟩
      have sound : ¬Flawed rt (.keys schema entries) := id
      rw [forall_placesIn declared, conforms_dict]
      constructor
      · intro conforms
        refine ⟨sound, ?_⟩
        intro key spec member val here
        obtain ⟨new, leaves, conforms_iff⟩ := each member here
        have specOf : propertySpec schema key = some spec := by
          rw [propertySpec, declared]
          exact Entries.get_of_mem distinct member
        exact conforms_iff.mp (conforms.2.2.2 key spec new specOf leaves)
      · intro places
        refine ⟨type, ?_, ?_, ?_⟩
        · intro key needs
          obtain ⟨required, found, member⟩ := needs
          have there := hasRequired_of_checkKeys inOrder required found _ member
          rw [Entries.get_isSome_iff, keys, ← Entries.get_isSome_iff]
          simpa [presentIn, DynRuntime.asKey] using there
        · intro closed key member
          obtain ⟨_, _, _, extras⟩ := checkKeys_accepted_iff.mp inOrder
          rw [keys] at member
          have there := extras closed key member
          rw [propertySpec, declared]
          simpa [declared, holdsKey] using there
        · intro key spec val specOf found
          obtain ⟨given, here⟩ := present found
          rw [propertySpec, declared] at specOf
          have member := Entries.mem_of_get specOf
          obtain ⟨new, leaves, conforms_iff⟩ := each member here
          rw [found] at leaves
          cases leaves
          exact conforms_iff.mpr (places.2 key spec member given here)

/-! ## Calls -/

/-- The object that a call checks against the parameters. -/
def checkedObject (validator : ToolCallValidator) (rt : DynRuntime F X) (params : DynEntries F X)
    (arguments : DynValue F X) : Option (DynEntries F X) :=
  match parseArguments validator rt arguments with
  | (some parsed, _) =>
      match unwrapped validator rt params parsed with
      | .ok (base, _) => some base
      | .error _ => none
  | (none, _) => none

/-- Validated arguments conform to their schema exactly when no place of the given
    object is one that the validator passes over. -/
theorem validated_arguments_conform_iff (validator : ToolCallValidator) (rt : DynRuntime F X)
    (toolName : String) (arguments : DynValue F X) (schema : Option (ToolSchema F X))
    (known : Option (List String)) {params : DynEntries F X}
    (checkedBy : schemaParams rt schema = some (.dict params))
    (supported : Supported (.dict params)) {report : ToolCallReport F X}
    (returned : (validateToolCall validator rt toolName arguments schema known).result = .ok report)
    (executable : report.isExecutable = true) :
    Conforms (.dict params) (.dict report.validatedArguments) ↔
      declaredType params = .object ∧
        ∀ base, checkedObject validator rt params arguments = some base →
          ∀ place ∈ argumentPlaces rt params base, ¬Flawed rt place := by
  obtain ⟨_, parsed, repairs, _, _, parsing, ran⟩ := executable_cases returned executable
  cases ran with
  | unchecked noSchema =>
      rw [noSchema] at checkedBy
      cases checkedBy
  | @checked others base unwrapping found handed accepted leaves normalizations =>
      rw [checkedBy] at found
      cases found
      have given : checkedObject validator rt params arguments = some base := by
        simp only [checkedObject, parsing, handed]
      rw [given, leaves]
      by_cases type : declaredType params = .object
      · simp only [type, Option.some.injEq, forall_eq', true_and]
        exact conformsUnlessFlawed _ params (schemaParams_proper checkedBy) supported type base ""
          accepted false
      · simp [conforms_dict, type]

/-- An object with one property, an integer. -/
def typedCountSchema : ToolSchema String Empty where
  members :=
    [(.text "type", .str "object"),
      (.text "properties", .dict [(.text "count", .dict [(.text "type", .str "integer")])])]
  proper := by simp [DynValue.Proper, DynValue.ProperEntries, Entries.keys]

theorem typedCountSchema_supported : Supported (.dict typedCountSchema.members) := by
  have requires : requiredOf typedCountSchema.members = .list (([] : List String).map .str) := rfl
  apply Supported.object rfl rfl requires
  · intro value found
    cases found
  · intro key sub member
    cases List.mem_singleton.mp member
    exact .scalar (.inl rfl)

theorem validated_arguments_conform_count :
    Conforms (.dict typedCountSchema.members) (.dict countReport.validatedArguments) := by
  have returned : (validateToolCall {} .ascii "wait" (.dict countArguments)
      (some typedCountSchema) none).result = .ok countReport := rfl
  apply (validated_arguments_conform_iff {} .ascii "wait" _ (some typedCountSchema) none rfl
    typedCountSchema_supported returned rfl).mpr
  constructor
  · rfl
  · intro base given
    cases given
    have places : argumentPlaces .ascii typedCountSchema.members countArguments =
        [.keys typedCountSchema.members countArguments,
          .value false (.dict [(.text "type", .str "integer")]) (.str "5")] := rfl
    rw [places]
    simp [Flawed]

/-- A truth value is let through where an integer is declared. -/
theorem truth_value_passes_as_integer :
    ¬∀ (arguments : DynValue String Empty) (schema : Option (ToolSchema String Empty))
      (params : DynEntries String Empty) (report : ToolCallReport String Empty),
      schemaParams .ascii schema = some (.dict params) → Supported (.dict params) →
        (validateToolCall {} .ascii "wait" arguments schema none).result = .ok report →
          report.isExecutable = true →
            Conforms (.dict params) (.dict report.validatedArguments) := by
  intro sound
  have conforms := sound (.dict [(.text "count", .bool true)]) (some typedCountSchema) _ _ rfl
    typedCountSchema_supported rfl rfl
  have count := (conforms_dict.mp conforms).2.2.2 (.text "count") _ _ rfl rfl
  have type := conforms_bool.mp count
  cases type

end DuraLLM
