import DuraLLM.Agent.SchemaConformance

/-! # What a call does to the caller's arguments

The validator works on a flat copy: the containers in it are the caller's own.
Conversions inside them are seen by the caller, also when the call is rejected
later on, and a conversion of the language may raise where the test before it
passed.  Both happen unless the validator turns the arguments down before it
comes to such a place.
-/

namespace DuraLLM

variable {F X : Type} [DecidableEq X]

/-! ## Events -/

/-- What happens at a place: nothing, a rejection, or something the caller notices. -/
inductive PlaceEvent where
  | clean
  | stops
  | harms
  deriving DecidableEq, Repr

def Verdict.event : Verdict → PlaceEvent
  | .accepted => .clean
  | .rejected _ => .stops
  | .raised _ => .harms

/-- A conversion is noticed where the caller shares the container. -/
def ScalarCheck.event (noticed : Bool) : ScalarCheck F X → PlaceEvent
  | .keeps => .clean
  | .converts _ _ => if noticed then .harms else .clean
  | .refuses _ => .stops
  | .raises _ => .harms

/-- The event at a value under the schema of its property. -/
def valueEvent (validator : ToolCallValidator) (rt : DynRuntime F X) (noticed : Bool)
    (propSpec val : DynValue F X) : PlaceEvent :=
  match propSpec with
  | .dict spec =>
      match scalarCheck validator rt "" (declaredType spec) with
      | some check => (check val).event noticed
      | none =>
          match declaredType spec, val with
          | .array, .list _ | .object, .dict _ => .clean
          | .array, _ | .object, _ => .stops
          | _, _ => .clean
  | _ => .harms

/-- `shared` where the arguments are the caller's own dictionary. -/
def Place.event (validator : ToolCallValidator) (rt : DynRuntime F X) (shared : Bool) :
    Place F X → PlaceEvent
  | .keys schema target => (checkKeys rt schema target "").event
  | .noProperties => .harms
  | .value nested propSpec val => valueEvent validator rt (shared && nested) propSpec val
  | .item _ => .stops

/-- The first place where something happens decides. -/
def firstEvent (event : Place F X → PlaceEvent) : List (Place F X) → PlaceEvent
  | [] => .clean
  | place :: places => if event place = .clean then firstEvent event places else event place

omit [DecidableEq X] in
theorem firstEvent_append (event : Place F X → PlaceEvent) (before after : List (Place F X)) :
    firstEvent event (before ++ after) =
      if firstEvent event before = .clean then firstEvent event after
      else firstEvent event before := by
  induction before with
  | nil => rfl
  | cons place before ih =>
      rw [List.cons_append, firstEvent, firstEvent, ih]
      split <;> rfl

/-- How a check ends after its first event, where `unchanged` says that the caller
    sees nothing of it. -/
def Fate (event : PlaceEvent) (unchanged : Prop) (verdict : Verdict) : Prop :=
  match event with
  | .clean => verdict = .accepted ∧ unchanged
  | .stops => (∃ message, verdict = .rejected message) ∧ unchanged
  | .harms => (∃ error, verdict = .raised error) ∨ ¬unchanged

theorem Fate.congr {event : PlaceEvent} {unchanged other : Prop} {verdict : Verdict}
    (same : unchanged ↔ other) (fate : Fate event unchanged verdict) :
    Fate event other verdict := by
  rwa [propext same] at fate

/-- Without a harmful event the check returns and the caller sees nothing. -/
theorem Fate.harmless_iff {event : PlaceEvent} {unchanged : Prop} {verdict : Verdict}
    (fate : Fate event unchanged verdict) :
    ((∀ error, verdict ≠ .raised error) ∧ unchanged) ↔ event ≠ .harms := by
  cases event with
  | clean =>
      obtain ⟨same, kept⟩ := fate
      simp [same, kept]
  | stops =>
      obtain ⟨⟨message, same⟩, kept⟩ := fate
      simp [same, kept]
  | harms =>
      cases fate with
      | inl raised =>
          obtain ⟨error, same⟩ := raised
          simp [same]
      | inr changed => simp [changed]

/-! ## Shared containers -/

/-- The value is as the caller knows it. -/
def KeptValue (shared nested : Bool) (old new : DynValue F X) : Prop :=
  shared = true → (nested = true ∨ old.isContainer = true) → new = old

/-- The entries are as the caller knows them; of the root object the caller has
    the containers only. -/
def KeptEntries (shared nested : Bool) (old new : DynEntries F X) : Prop :=
  shared = true → if nested then new = old else sharedWith old new = old

section Shared

variable {shared nested : Bool} {name : DynKey X} {val new : DynValue F X}
  {target final : DynEntries F X}

omit [DecidableEq X] in
theorem sharedWith_self (target : DynEntries F X) : sharedWith target target = target := by
  simp [sharedWith]

omit [DecidableEq X] in
theorem KeptEntries.refl (target : DynEntries F X) : KeptEntries shared nested target target := by
  intro _
  split
  · rfl
  · exact sharedWith_self target

/-- A scalar at the root may be replaced. -/
theorem sharedWith_set (found : Entries.get name target = some val)
    (scalar : val.isContainer = false) (stays : new.isContainer = false) :
    sharedWith (Entries.set name new target) final = Entries.set name new target ↔
      sharedWith target final = target := by
  induction target generalizing final with
  | nil => cases found
  | cons entry target ih =>
      obtain ⟨key, old⟩ := entry
      rw [Entries.get_cons] at found
      cases final with
      | nil =>
          rw [Entries.set]
          split <;> simp [sharedWith]
      | cons last final =>
          rw [Entries.set]
          split
          · next same =>
            rw [if_pos same] at found
            cases found
            simp [sharedWith, scalar, stays]
          · next different =>
            rw [if_neg different] at found
            have rest : sharedWith (Entries.set name new target) final = Entries.set name new target ↔
                sharedWith target final = target := ih found
            simp only [sharedWith] at rest ⊢
            simp only [List.zipWith_cons_cons, List.cons.injEq, rest]

/-- A container at the root that was changed is seen. -/
theorem sharedWith_changed (found : Entries.get name target = some val)
    (container : val.isContainer = true) (keys : Entries.keys final = Entries.keys target)
    (changed : Entries.get name final = some new) (different : new ≠ val) :
    sharedWith target final ≠ target := by
  induction target generalizing final with
  | nil => cases found
  | cons entry target ih =>
      obtain ⟨key, old⟩ := entry
      cases final with
      | nil => cases keys
      | cons last final =>
          obtain ⟨other, value⟩ := last
          obtain ⟨rfl, rest⟩ : other = key ∧ Entries.keys final = Entries.keys target := by
            simpa [Entries.keys] using keys
          rw [Entries.get_cons] at found changed
          intro same
          simp only [sharedWith, List.zipWith_cons_cons, List.cons.injEq] at same
          split at found
          · next here =>
            rw [if_pos here] at changed
            cases found
            cases changed
            rw [if_pos container] at same
            exact different (congrArg Prod.snd same.1)
          · next elsewhere =>
            rw [if_neg elsewhere] at changed
            exact ih found rest changed same.2

/-- After a value that was kept the caller sees what the rest of the check does. -/
theorem keptEntries_set (found : Entries.get name target = some val)
    (kept : KeptValue shared nested val new) (sort : new.isContainer = val.isContainer) :
    KeptEntries shared nested (Entries.set name new target) final ↔
      KeptEntries shared nested target final := by
  cases shared with
  | false => simp [KeptEntries]
  | true =>
      by_cases seen : nested = true ∨ val.isContainer = true
      · rw [kept rfl seen, Entries.set_get found]
      · simp only [not_or, Bool.not_eq_true] at seen
        obtain ⟨root, scalar⟩ := seen
        simp only [KeptEntries, root, Bool.false_eq_true, if_false, forall_const]
        exact sharedWith_set found scalar (sort.trans scalar)

/-- A value that was not kept is seen in the end. -/
theorem not_keptEntries (found : Entries.get name target = some val)
    (changed : ¬KeptValue shared nested val new) (keys : Entries.keys final = Entries.keys target)
    (leaves : Entries.get name final = some new) : ¬KeptEntries shared nested target final := by
  simp only [KeptValue, Classical.not_imp] at changed
  obtain ⟨isShared, seen, different⟩ := changed
  intro kept
  have same := kept isShared
  split at same
  · rw [same, found] at leaves
    exact different (Option.some.inj leaves).symm
  · next root =>
    have container := seen.resolve_left root
    exact sharedWith_changed found container keys leaves different same

end Shared

/-! ## Values -/

/-- The schema of the items is inside the schema of the array. -/
theorem items_depth {spec itemSpec : DynEntries F X} (items : objectItems spec = some itemSpec) :
    (DynValue.dict itemSpec).depth < (DynValue.dict spec).depth := by
  rw [objectItems] at items
  split at items
  · next found =>
    split at items
    · cases items
      exact DynValue.depth_mem (Entries.mem_of_get found)
    · cases items
  · cases items

section Values

variable {validator : ToolCallValidator} {rt : DynRuntime F X} {shared nested : Bool}
  {fieldName : String}

omit [DecidableEq X] in
/-- The name of the field is in the messages only. -/
theorem scalarCheck_event {type : DeclaredType} {check other : DynValue F X → ScalarCheck F X}
    {name : String} (scalar : scalarCheck validator rt fieldName type = some check)
    (elsewhere : scalarCheck validator rt name type = some other) (noticed : Bool)
    (val : DynValue F X) : (other val).event noticed = (check val).event noticed := by
  cases type with
  | integer =>
      cases scalar
      cases elsewhere
      simp only [checkInteger]
      split
      · rfl
      · rfl
      · split
        · split <;> rfl
        · rfl
      · rfl
  | number =>
      cases scalar
      cases elsewhere
      simp only [checkNumber]
      split
      · rfl
      · rfl
      · rfl
      · split
        · split <;> rfl
        · rfl
      · rfl
  | boolean =>
      cases scalar
      cases elsewhere
      simp only [checkBoolean]
      split
      · rfl
      · split <;> rfl
      · rfl
  | string =>
      cases scalar
      cases elsewhere
      simp only [checkString]
      split
      · rfl
      · split <;> rfl
      · split
        · split <;> rfl
        · rfl
      · split <;> rfl
      · rfl
  | array | object | other => cases scalar

theorem valueEvent_scalar {spec : DynEntries F X} {check : DynValue F X → ScalarCheck F X}
    (scalar : scalarCheck validator rt fieldName (declaredType spec) = some check) (noticed : Bool)
    (val : DynValue F X) :
    valueEvent validator rt noticed (.dict spec) val = (check val).event noticed := by
  obtain ⟨other, nameless⟩ := scalarCheck_elsewhere scalar ""
  simp only [valueEvent, nameless]
  exact scalarCheck_event scalar nameless noticed val

omit [DecidableEq X] in
variable (shared nested) in
theorem scalar_fate {type : DeclaredType} {check : DynValue F X → ScalarCheck F X}
    (scalar : scalarCheck validator rt fieldName type = some check) (val : DynValue F X) :
    Fate ((check val).event (shared && nested))
      (KeptValue shared nested val ((check val).checked fieldName val).target)
      ((check val).checked fieldName val).verdict := by
  cases outcome : check val with
  | keeps => exact ⟨rfl, fun _ _ => rfl⟩
  | refuses message => exact ⟨⟨message, rfl⟩, fun _ _ => rfl⟩
  | raises error => exact .inl ⟨error, rfl⟩
  | converts value how =>
      have conversion := (conversion_of_scalarCheck scalar outcome).1
      obtain ⟨before, _⟩ := conversion.scalars
      cases shared with
      | false => exact ⟨rfl, fun impossible => by cases impossible⟩
      | true =>
          cases nested with
          | false => exact ⟨rfl, fun _ seen => by simp [before] at seen⟩
          | true => exact .inr fun kept => conversion.ne (kept rfl (.inl rfl))

omit [DecidableEq X] in
theorem scalar_isContainer {type : DeclaredType} {check : DynValue F X → ScalarCheck F X}
    (scalar : scalarCheck validator rt fieldName type = some check) (val : DynValue F X) :
    ((check val).checked fieldName val).target.isContainer = val.isContainer := by
  cases outcome : check val with
  | keeps | refuses | raises => rfl
  | converts value how =>
      obtain ⟨before, after⟩ := (conversion_of_scalarCheck scalar outcome).1.scalars
      exact after.trans before.symm

section Containers

variable {checkObject : DynEntries F X → DynEntries F X → String → Checked (DynEntries F X)}
  {below : DynEntries F X → DynEntries F X → List (Place F X)}

/-- How the objects inside a value end, each after the first event in it. -/
def ObjectFate (validator : ToolCallValidator) (rt : DynRuntime F X) (shared : Bool)
    (checkObject : DynEntries F X → DynEntries F X → String → Checked (DynEntries F X))
    (below : DynEntries F X → DynEntries F X → List (Place F X)) (schema : DynEntries F X) : Prop :=
  ∀ entries name, Fate (firstEvent (Place.event validator rt shared) (below schema entries))
    (KeptEntries shared true entries (checkObject schema entries name).target)
    (checkObject schema entries name).verdict

theorem items_fate {itemSpec : DynEntries F X}
    (objects : ObjectFate validator rt shared checkObject below itemSpec) (index : Nat)
    (items : List (DynValue F X)) :
    Fate (firstEvent (Place.event validator rt shared) (items.flatMap (itemPlaces (below itemSpec))))
      (shared = true → (checkItems rt (checkObject itemSpec) fieldName index items).target = items)
      (checkItems rt (checkObject itemSpec) fieldName index items).verdict := by
  induction items generalizing index with
  | nil => exact ⟨rfl, fun _ => rfl⟩
  | cons item items ih =>
      rw [List.flatMap_cons, firstEvent_append]
      cases item with
      | dict entries =>
          have first := objects entries (itemField fieldName index)
          have rest := ih (index + 1)
          rw [checkItems, itemPlaces]
          generalize checkObject itemSpec entries (itemField fieldName index) = object at first
          cases event : firstEvent (Place.event validator rt shared) (below itemSpec entries) with
          | clean =>
              rw [event] at first
              obtain ⟨accepted, kept⟩ := first
              simp only [accepted, if_true]
              apply rest.congr
              constructor
              · intro same isShared
                have object := kept isShared
                simp only [if_true] at object
                rw [object, same isShared]
              · intro same isShared
                have whole := same isShared
                simp only [List.cons.injEq] at whole
                exact whole.2
          | stops =>
              rw [event] at first
              obtain ⟨⟨message, rejected⟩, kept⟩ := first
              simp only [rejected, reduceCtorEq, if_false]
              constructor
              · exact ⟨message, rfl⟩
              · intro isShared
                have object := kept isShared
                simp only [if_true] at object
                rw [object]
          | harms =>
              rw [event] at first
              simp only [reduceCtorEq, if_false]
              cases first with
              | inl raised =>
                  obtain ⟨error, raised⟩ := raised
                  simp only [raised]
                  exact .inl ⟨error, rfl⟩
              | inr changed =>
                  right
                  intro same
                  apply changed
                  intro isShared
                  have whole := same isShared
                  simp only [if_true]
                  split at whole
                  · simp only [List.cons.injEq, DynValue.dict.injEq] at whole
                    exact whole.1
                  · simp only [List.cons.injEq, DynValue.dict.injEq, and_true] at whole
                    exact whole
      | none | bool | int | float | str | list | other =>
          exact ⟨⟨_, rfl⟩, fun _ => rfl⟩

variable (validator rt) (checkObject) (fieldName) in
/-- Conversions and checks leave scalars scalars and containers containers. -/
theorem checkValue_isContainer (propSpec val : DynValue F X) :
    (checkValue validator rt checkObject propSpec fieldName val).target.isContainer =
      val.isContainer := by
  cases propSpec with
  | dict spec =>
      cases type : declaredType spec with
      | integer | number | boolean | string =>
          have scalar := congrArg (scalarCheck validator rt fieldName) type
          rw [checkValue_scalar scalar]
          exact scalar_isContainer scalar val
      | other => simp only [checkValue, type]
      | array =>
          simp only [checkValue, type]
          cases val with
          | list items => cases objectItems spec <;> rfl
          | none | bool | int | float | str | dict | other => rfl
      | object =>
          simp only [checkValue, type]
          cases val with
          | dict entries => cases goesInto rt spec <;> rfl
          | none | bool | int | float | str | list | other => rfl
  | none | bool | int | float | str | list | other => rfl

theorem value_fate {propSpec : DynValue F X} (proper : propSpec.Proper)
    (objects : ∀ schema, (DynValue.dict schema).Proper →
      (DynValue.dict schema).depth ≤ propSpec.depth →
      ObjectFate validator rt shared checkObject below schema)
    (val : DynValue F X) :
    Fate (firstEvent (Place.event validator rt shared) (placesOf rt below nested propSpec val))
      (KeptValue shared nested val (checkValue validator rt checkObject propSpec fieldName val).target)
      (checkValue validator rt checkObject propSpec fieldName val).verdict := by
  cases propSpec with
  | dict spec =>
      rw [placesOf_dict, firstEvent, Place.event]
      cases type : declaredType spec with
      | integer | number | boolean | string =>
          have scalar := congrArg (scalarCheck validator rt fieldName) type
          have inside : placesInside rt below spec val = [] := by simp [placesInside, type]
          have fate := scalar_fate shared nested scalar val
          rw [checkValue_scalar scalar, valueEvent_scalar scalar, inside, firstEvent]
          split
          · next clean => rwa [clean] at fate
          · exact fate
      | other =>
          simp only [valueEvent, type, scalarCheck, placesInside, checkValue, firstEvent, if_true]
          exact ⟨rfl, fun _ _ => rfl⟩
      | array =>
          cases val with
          | list items =>
              simp only [valueEvent, type, scalarCheck, placesInside, checkValue, if_true]
              cases itemsOf : objectItems spec with
              | none => exact ⟨rfl, fun _ _ => rfl⟩
              | some itemSpec =>
                  apply (items_fate (objects itemSpec (items_proper proper itemsOf)
                    (items_depth itemsOf).le) 0 items).congr
                  constructor
                  · intro same isShared _
                    exact congrArg DynValue.list (same isShared)
                  · intro kept isShared
                    exact DynValue.list.inj (kept isShared (.inr rfl))
          | none | bool | int | float | str | dict | other =>
              simp only [valueEvent, type, scalarCheck, checkValue, reduceCtorEq, if_false]
              exact ⟨⟨_, rfl⟩, fun _ _ => rfl⟩
      | object =>
          cases val with
          | dict entries =>
              simp only [valueEvent, type, scalarCheck, placesInside, checkValue, if_true]
              cases inside : goesInto rt spec with
              | false => exact ⟨rfl, fun _ _ => rfl⟩
              | true =>
                  simp only [if_true]
                  apply (objects spec proper le_rfl entries fieldName).congr
                  constructor
                  · intro same isShared _
                    exact congrArg DynValue.dict (same isShared)
                  · intro kept isShared
                    exact DynValue.dict.inj (kept isShared (.inr rfl))
          | none | bool | int | float | str | list | other =>
              simp only [valueEvent, type, scalarCheck, checkValue, reduceCtorEq, if_false]
              exact ⟨⟨_, rfl⟩, fun _ _ => rfl⟩
  | none | bool | int | float | str | list | other => exact .inl ⟨_, rfl⟩

theorem properties_fate {properties : DynEntries F X} (distinct : (Entries.keys properties).Nodup)
    {pathPrefix : String}
    (each : ∀ key spec, (key, spec) ∈ properties → ∀ val,
      Fate (firstEvent (Place.event validator rt shared) (placesOf rt below nested spec val))
        (KeptValue shared nested val
          (checkValue validator rt checkObject spec (fieldOf rt pathPrefix key) val).target)
        (checkValue validator rt checkObject spec (fieldOf rt pathPrefix key) val).verdict)
    (target : DynEntries F X) :
    Fate (firstEvent (Place.event validator rt shared)
        (properties.flatMap (propertyPlaces rt below nested target)))
      (KeptEntries shared nested target
        (checkProperties rt (checkValue validator rt checkObject) pathPrefix properties target).target)
      (checkProperties rt (checkValue validator rt checkObject) pathPrefix properties
        target).verdict := by
  induction properties generalizing target with
  | nil => exact ⟨rfl, .refl target⟩
  | cons property properties ih =>
      obtain ⟨name, spec⟩ := property
      obtain ⟨fresh, distinct⟩ := List.nodup_cons.mp distinct
      have later := ih distinct fun key spec member => each key spec (List.mem_cons_of_mem _ member)
      have keys := checkProperties_keys rt (checkValue validator rt checkObject) pathPrefix
        ((name, spec) :: properties) target
      rw [List.flatMap_cons, firstEvent_append, checkProperties] at *
      cases found : Entries.get name target with
      | none =>
          simp only [propertyPlaces, found, firstEvent, if_true]
          exact later target
      | some val =>
          have first := each name spec List.mem_cons_self val
          have sort := checkValue_isContainer validator rt
            (fieldOf rt pathPrefix name) checkObject spec val
          have same : properties.flatMap (propertyPlaces rt below nested (Entries.set name
              (checkValue validator rt checkObject spec (fieldOf rt pathPrefix name) val).target
              target)) = properties.flatMap (propertyPlaces rt below nested target) := by
            apply List.flatMap_congr
            intro property member
            have different : property.1 ≠ name := by
              intro same
              exact fresh (List.mem_map.mpr ⟨property, member, same⟩)
            rw [propertyPlaces, propertyPlaces, Entries.get_set_of_ne different]
          have rest := later (Entries.set name
            (checkValue validator rt checkObject spec (fieldOf rt pathPrefix name) val).target target)
          have leaves := checkProperties_untouched rt (checkValue validator rt checkObject) pathPrefix fresh
            (Entries.set name
            (checkValue validator rt checkObject spec (fieldOf rt pathPrefix name) val).target target)
          rw [same] at rest
          rw [Entries.get_set_self] at leaves
          simp only [found] at keys
          have here : propertyPlaces rt below nested target (name, spec) =
              placesOf rt below nested spec val := by rw [propertyPlaces, found]
          simp only [here]
          generalize checkValue validator rt checkObject spec (fieldOf rt pathPrefix name) val = value
            at first sort rest leaves keys ⊢
          cases event : firstEvent (Place.event validator rt shared)
            (placesOf rt below nested spec val) with
          | clean =>
              rw [event] at first
              obtain ⟨accepted, kept⟩ := first
              simp only [accepted, if_true]
              exact rest.congr (keptEntries_set found kept sort)
          | stops =>
              rw [event] at first
              obtain ⟨⟨message, rejected⟩, kept⟩ := first
              simp only [rejected, reduceCtorEq, if_false]
              exact ⟨⟨message, rfl⟩, (keptEntries_set found kept sort).mp (.refl _)⟩
          | harms =>
              rw [event] at first
              simp only [reduceCtorEq, if_false]
              cases first with
              | inl raised =>
                  obtain ⟨error, raised⟩ := raised
                  simp only [raised]
                  exact .inl ⟨error, rfl⟩
              | inr changed =>
                  right
                  apply not_keptEntries found changed keys
                  split
                  · exact leaves
                  · exact Entries.get_set_self _ _ _

end Containers

end Values

/-! ## Objects -/

section Objects

variable {validator : ToolCallValidator} {rt : DynRuntime F X} {shared : Bool}

theorem checkKeys_event (schema target : DynEntries F X) (pathPrefix : String) :
    (checkKeys rt schema target "").event = (checkKeys rt schema target pathPrefix).event := by
  simp only [checkKeys]
  split
  · rfl
  · split
    · rfl
    · rfl
    · split
      · split <;> rfl
      · rfl

/-- The schema of a property is inside the schema of the object. -/
theorem property_depth {schema properties : DynEntries F X} {key : DynKey X} {spec : DynValue F X}
    (declared : propertiesOf schema = .dict properties) (member : (key, spec) ∈ properties) :
    spec.depth < (DynValue.dict schema).depth := by
  rw [propertiesOf] at declared
  cases found : Entries.get (.text "properties") schema with
  | none =>
      rw [found] at declared
      cases declared
      cases member
  | some value =>
      rw [found] at declared
      cases declared
      exact (DynValue.depth_mem member).trans (DynValue.depth_mem (Entries.mem_of_get found))

variable (validator rt) (shared) in
/-- An object fares as the first event in its places says. -/
theorem object_fate (depth : Nat) (schema : DynEntries F X)
    (enough : (DynValue.dict schema).depth < depth) (proper : (DynValue.dict schema).Proper)
    (nested : Bool) (target : DynEntries F X) (pathPrefix : String) :
    Fate (firstEvent (Place.event validator rt shared) (placesIn rt depth nested schema target))
      (KeptEntries shared nested target
        (validateSchema validator rt depth schema target pathPrefix).target)
      (validateSchema validator rt depth schema target pathPrefix).verdict := by
  induction depth generalizing schema nested target pathPrefix with
  | zero => cases enough
  | succ depth ih =>
      rw [placesIn, firstEvent, Place.event, checkKeys_event schema target pathPrefix, validateSchema]
      cases checkKeys rt schema target pathPrefix with
      | rejected message => exact ⟨⟨message, rfl⟩, .refl target⟩
      | raised error => exact .inl ⟨error, rfl⟩
      | accepted =>
          simp only [Verdict.event, if_true]
          cases declared : propertiesOf schema with
          | dict properties =>
              apply properties_fate (properties_distinct proper declared)
              intro key spec member val
              apply value_fate (property_proper proper declared member)
              intro inner innerProper within entries name
              have below := property_depth declared member
              exact ih inner (by omega) innerProper true entries name
          | none | bool | int | float | str | list | other => exact .inl ⟨_, rfl⟩

end Objects

/-! ## Calls -/

def isDict : DynValue F X → Bool
  | .dict _ => true
  | _ => false

/-- The first event of a call: at the first place that is not in order, where the
    containers are shared if the caller passes a dictionary. -/
def callEvent (validator : ToolCallValidator) (rt : DynRuntime F X) (toolName : String)
    (arguments : DynValue F X) (schema : Option (ToolSchema F X)) (known : Option (List String)) :
    PlaceEvent :=
  match known.filter fun tools => toolName ∉ tools, parseArguments validator rt arguments with
  | none, (some parsed, _) =>
      match schemaParams rt schema with
      | none => .clean
      | some (.dict params) =>
          match unwrapped validator rt params parsed with
          | .ok (base, _) =>
              firstEvent (Place.event validator rt (isDict arguments)) (argumentPlaces rt params base)
          | .error _ => .harms
      | some _ => .harms
  | _, _ => .stops

section Calls

variable {validator : ToolCallValidator} {rt : DynRuntime F X} {arguments : DynValue F X}

/-- The caller's arguments are as before when the containers of the checked object are. -/
theorem argumentsAfter_eq_iff {params parsed base checked : DynEntries F X}
    {repairs notes : List String}
    (parsing : parseArguments validator rt arguments = (some parsed, repairs))
    (handed : unwrapped validator rt params parsed = .ok (base, notes)) :
    argumentsAfter arguments base checked (notes ≠ []) = arguments ↔
      KeptEntries (isDict arguments) false base checked := by
  cases arguments with
  | dict given =>
      cases parsing
      simp only [KeptEntries, isDict, forall_const, Bool.false_eq_true, if_false]
      obtain ⟨rfl, rfl⟩ | ⟨wrapper, _, rfl, rfl, _⟩ := unwrapped_cases handed
      · simp [argumentsAfter]
      · simp [argumentsAfter]
  | str text => simp [argumentsAfter, KeptEntries, isDict]
  | none | bool | int | float | list | other => cases parsing

theorem checkParsed_unnoticed_iff {toolName raw : String} {parsed : DynEntries F X}
    {repairs : List String} {schema : Option (ToolSchema F X)} {known : Option (List String)}
    (catalog : known.filter (fun tools => toolName ∉ tools) = none)
    (parsing : parseArguments validator rt arguments = (some parsed, repairs)) :
    ((∃ report, (checkParsed validator rt toolName raw arguments parsed repairs schema).result =
        .ok report) ∧
      (checkParsed validator rt toolName raw arguments parsed repairs schema).arguments =
        arguments) ↔
      callEvent validator rt toolName arguments schema known ≠ .harms := by
  simp only [callEvent, catalog, parsing]
  rw [checkParsed]
  cases params : schemaParams rt schema with
  | none => simp
  | some value =>
      cases value with
      | dict members =>
          cases handed : unwrapped validator rt members parsed with
          | error error => simp [handed]
          | ok outcome =>
              obtain ⟨base, notes⟩ := outcome
              have fate := object_fate validator rt (isDict arguments) _ members (Nat.lt_succ_self _)
                (schemaParams_proper params) false base ""
              change Fate (firstEvent (Place.event validator rt (isDict arguments))
                (argumentPlaces rt members base)) (KeptEntries (isDict arguments) false base
                  (checkRoot validator rt members base).target)
                (checkRoot validator rt members base).verdict at fate
              simp only [handed, argumentsAfter_eq_iff parsing handed, ← fate.harmless_iff]
              apply and_congr_left
              intro _
              cases (checkRoot validator rt members base).verdict with
              | accepted | rejected | raised => simp
      | none | bool | int | float | str | list | other => simp

/-- A call returns a report and leaves the caller's arguments alone exactly when
    they can be written and its first event is not a harmful one. -/
theorem call_unnoticed_iff (validator : ToolCallValidator) (rt : DynRuntime F X)
    (toolName : String) (arguments : DynValue F X) (schema : Option (ToolSchema F X))
    (known : Option (List String)) :
    ((∃ report, (validateToolCall validator rt toolName arguments schema known).result =
        .ok report) ∧
      (validateToolCall validator rt toolName arguments schema known).arguments = arguments) ↔
      (∃ raw, rawText rt arguments = .ok raw) ∧
        callEvent validator rt toolName arguments schema known ≠ .harms := by
  rw [validateToolCall]
  cases rawText rt arguments with
  | error error => simp
  | ok raw =>
      simp only [Except.ok.injEq, exists_eq', true_and]
      cases catalog : known.filter fun tools => toolName ∉ tools with
      | some tools =>
          simp only [callEvent, catalog]
          simp
      | none =>
          cases parsing : parseArguments validator rt arguments with
          | mk outcome repairs =>
              cases outcome with
              | none =>
                  simp only [callEvent, catalog, parsing]
                  simp
              | some parsed => exact checkParsed_unnoticed_iff catalog parsing

end Calls

/-- An object inside an object, with an integer in it. -/
def nestedCountSchema : ToolSchema String Empty where
  members :=
    [(.text "type", .str "object"),
      (.text "properties", .dict [(.text "inner", .dict typedCountSchema.members)])]
  proper := by
    simp [DynValue.Proper, DynValue.ProperEntries, Entries.keys, typedCountSchema]

theorem nestedCountSchema_supported : Supported (.dict nestedCountSchema.members) := by
  have requires : requiredOf nestedCountSchema.members = .list (([] : List String).map .str) := rfl
  apply Supported.object rfl rfl requires
  · intro value found
    cases found
  · intro key sub member
    cases List.mem_singleton.mp member
    exact typedCountSchema_supported

/-- A text inside the caller's arguments becomes a number there. -/
theorem nested_conversion_noticed :
    ¬∀ (arguments : DynValue String Empty) (schema : Option (ToolSchema String Empty)),
      (∀ params, schemaParams .ascii schema = some params → Supported params) →
        (∃ report, (validateToolCall {} .ascii "wait" arguments schema none).result = .ok report) ∧
          (validateToolCall {} .ascii "wait" arguments schema none).arguments = arguments := by
  intro unnoticed
  have same := (unnoticed (.dict [(.text "inner", .dict countArguments)]) (some nestedCountSchema)
    (by
      intro params found
      cases found
      exact nestedCountSchema_supported)).2
  have changed : (validateToolCall {} .ascii "wait" (.dict [(.text "inner", .dict countArguments)])
      (some nestedCountSchema) none).arguments =
      .dict [(.text "inner", .dict [(.text "count", .int 5)])] := rfl
  rw [changed] at same
  cases same

/-- A superscript is a digit that `int` refuses. -/
example : (validateToolCall {} .ascii "wait" (.dict [(.text "count", .str "²")])
    (some typedCountSchema) none).result = .error .valueError := rfl

end DuraLLM
