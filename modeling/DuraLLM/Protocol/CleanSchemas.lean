import Mathlib
import DuraLLM.Protocol.Gemini

/-! # Cleaned schemas

A schema is cleaned by following its local references and keeping what Gemini
knows.  However the references run, this comes to an end, what comes out is made
of six kinds of members, and cleaning that again changes nothing.
-/

namespace DuraLLM

open JsonRaw

/-! ## Letter case -/

/-- The functions as the language has them: a text is its own `str`, upper case is
    final, ASCII texts are cased as usual, and no other letter than the Kelvin sign
    is lowered to ASCII letters only. -/
structure PythonText extends TextFunctions where
  str_text : ∀ s, str (.str s) = s
  upper_upper : ∀ s, upper (upper s) = upper s
  plain : ∀ s, (∀ c ∈ s.toList, c.toNat < 128) → lower s = s.toLower ∧ upper s = s.toUpper
  lower_letters : ∀ s, (∀ c ∈ (lower s).toList, c.isLower = true ∧ c ≠ 'k') →
    ∀ c ∈ s.toList, c.toNat < 128

/-- A type that is in upper case, and that cleaning keeps. -/
structure SettledType (text : TextFunctions) (type : String) : Prop where
  upper : text.upper type = type
  kept : (geminiTypeMap.lookup (text.lower type)).getD (text.upper type) = type

namespace PythonText

variable (text : PythonText)

theorem toList_toUpper (s : String) : s.toUpper.toList = s.toList.map Char.toUpper :=
  String.toList_map ..

theorem toList_toLower (s : String) : s.toLower.toList = s.toList.map Char.toLower :=
  String.toList_map ..

theorem toUpper_toLower (s : String) : s.toLower.toUpper = s.toUpper := by
  apply String.toList_injective
  rw [toList_toUpper, toList_toLower, toList_toUpper, List.map_map]
  exact List.map_congr_left fun c _ => Char.toUpper_toLower_eq_toUpper c

/-- The known types are ASCII letters, and Gemini's names for them are their upper case. -/
theorem typeMap_upper {key name : String} (found : geminiTypeMap.lookup key = some name) :
    name = key.toUpper ∧ name.toLower = key ∧ (∀ c ∈ name.toList, c.toNat < 128) ∧
      ∀ c ∈ key.toList, c.isLower = true ∧ c ≠ 'k' := by
  have every : ∀ entry ∈ geminiTypeMap, entry.2.toList = entry.1.toList.map Char.toUpper ∧
      entry.2.toList.map Char.toLower = entry.1.toList ∧ (∀ c ∈ entry.2.toList, c.toNat < 128) ∧
        ∀ c ∈ entry.1.toList, c.isLower = true ∧ c ≠ 'k' := by
    intro entry member
    simp only [geminiTypeMap, List.mem_cons, List.not_mem_nil, or_false] at member
    rcases member with rfl | rfl | rfl | rfl | rfl | rfl <;> simp
  obtain ⟨front, back, split, -⟩ := List.lookup_eq_some_iff.mp found
  obtain ⟨upper, lower, ascii, letters⟩ := every (key, name) (by simp [split])
  refine ⟨String.toList_injective ?_, String.toList_injective ?_, ascii, letters⟩
  · rw [toList_toUpper, upper]
  · rw [toList_toLower, lower]

/-- Gemini's names settle. -/
theorem settled_name {key name : String} (found : geminiTypeMap.lookup key = some name) :
    SettledType text.toTextFunctions name := by
  obtain ⟨upper, lower, ascii, -⟩ := typeMap_upper found
  obtain ⟨lowered, raised⟩ := text.plain name ascii
  constructor
  · rw [raised, ← toUpper_toLower, lower, upper]
  · rw [lowered, lower, found]
    rfl

/-- Whatever case a type is written in, what comes of it settles. -/
theorem settled_type (type : String) :
    SettledType text.toTextFunctions
      ((geminiTypeMap.lookup (text.lower type)).getD (text.upper type)) := by
  cases found : geminiTypeMap.lookup (text.lower type) with
  | some name => exact text.settled_name found
  | none =>
      refine ⟨text.upper_upper type, ?_⟩
      rw [Option.getD_none, text.upper_upper]
      cases known : geminiTypeMap.lookup (text.lower (text.upper type)) with
      | none => rfl
      | some name =>
          obtain ⟨upper, -, -, letters⟩ := typeMap_upper known
          have ascii := text.lower_letters (text.upper type) letters
          obtain ⟨lowered, raised⟩ := text.plain (text.upper type) ascii
          calc
            name = (text.upper type).toLower.toUpper := by rw [upper, lowered]
            _ = text.upper (text.upper type) := by rw [toUpper_toLower, raised]
            _ = text.upper type := text.upper_upper type

end PythonText

/-! ## Schema objects -/

/-- `s` is the schema, or stands under properties and items of it. -/
inductive Subschema : JsonRaw → JsonRaw → Prop where
  | root (s : JsonRaw) : Subschema s s
  | property {members properties : List (String × JsonRaw)} {name : String} {v s : JsonRaw}
      (place : ("properties", .obj properties) ∈ members) (entry : (name, v) ∈ properties)
      (inside : Subschema v s) : Subschema (.obj members) s
  | items {members : List (String × JsonRaw)} {v s : JsonRaw} (place : ("items", v) ∈ members)
      (inside : Subschema v s) : Subschema (.obj members) s

/-- Type entries are texts or lists of texts. -/
def TypeEntries (members : List (String × JsonRaw)) : Prop :=
  ∀ v, ("type", v) ∈ members → match v with
    | .str _ => True
    | .arr types => ∀ type ∈ types, ∃ name, type = .str name
    | _ => False

/-- Every schema object of the schema has proper type entries. -/
def WellTyped (schema : JsonRaw) : Prop :=
  ∀ members, Subschema schema (.obj members) → TypeEntries members

/-- The keys that Gemini knows. -/
def geminiKeys : List String := ["type", "properties", "items", "required", "description", "enum"]

/-- A schema object as Gemini takes it. -/
structure GeminiObject (text : TextFunctions) (members : List (String × JsonRaw)) : Prop where
  keys : ∀ m ∈ members, m.1 ∈ geminiKeys
  upperType : ∃ type, members.lookup "type" = some (.str type) ∧ text.upper type = type
  noReference : ∀ m ∈ members, m.1 ≠ "$ref"

mutual

/-- What cleaning leaves of a schema. -/
inductive Cleaned (text : TextFunctions) : JsonRaw → Prop where
  | other {v : JsonRaw} (plain : ∀ members, v ≠ .obj members) : Cleaned text v
  | schema {members : List (String × JsonRaw)} (typed : (members.lookup "type").isSome)
      (clean : CleanedMembers text members) : Cleaned text (.obj members)

inductive CleanedMembers (text : TextFunctions) : List (String × JsonRaw) → Prop where
  | nil : CleanedMembers text []
  | type {type : String} {members : List (String × JsonRaw)} (settled : SettledType text type)
      (rest : CleanedMembers text members) :
      CleanedMembers text (("type", .str type) :: members)
  | properties {properties members : List (String × JsonRaw)}
      (clean : CleanedProperties text properties) (rest : CleanedMembers text members) :
      CleanedMembers text (("properties", .obj properties) :: members)
  | items {items members : List (String × JsonRaw)} (clean : Cleaned text (.obj items))
      (rest : CleanedMembers text members) :
      CleanedMembers text (("items", .obj items) :: members)
  | required {names : List String} {members : List (String × JsonRaw)}
      (rest : CleanedMembers text members) :
      CleanedMembers text (("required", .arr (names.map .str)) :: members)
  | description {description : String} {members : List (String × JsonRaw)}
      (rest : CleanedMembers text members) :
      CleanedMembers text (("description", .str description) :: members)
  | enum {values : List String} {members : List (String × JsonRaw)}
      (rest : CleanedMembers text members) :
      CleanedMembers text (("enum", .arr (values.map .str)) :: members)

inductive CleanedProperties (text : TextFunctions) : List (String × JsonRaw) → Prop where
  | nil : CleanedProperties text []
  | cons {name : String} {v : JsonRaw} {properties : List (String × JsonRaw)}
      (clean : Cleaned text v) (rest : CleanedProperties text properties) :
      CleanedProperties text ((name, v) :: properties)

end

/-! ### What a cleaned schema is made of -/

section Shape

variable {text : TextFunctions} {members : List (String × JsonRaw)}

theorem CleanedMembers.keys (clean : CleanedMembers text members) :
    ∀ m ∈ members, m.1 ∈ geminiKeys := by
  intro m member
  induction members with
  | nil => cases member
  | cons first members ih =>
      cases clean <;> next rest =>
        cases List.mem_cons.mp member with
        | inl here =>
            subst here
            simp [geminiKeys]
        | inr later => exact ih rest later

theorem CleanedMembers.no_reference (clean : CleanedMembers text members) (ref : String) :
    members.lookup "$ref" ≠ some (.str ref) := by
  intro found
  obtain ⟨front, back, split, -⟩ := List.lookup_eq_some_iff.mp found
  have known := clean.keys ("$ref", .str ref) (by simp [split])
  simp [geminiKeys] at known

/-- Every type entry is in upper case. -/
theorem CleanedMembers.type_upper (clean : CleanedMembers text members) {v : JsonRaw}
    (found : members.lookup "type" = some v) : ∃ type, v = .str type ∧ text.upper type = type := by
  induction members with
  | nil => cases found
  | cons first members ih =>
      cases clean with
      | type settled rest =>
          cases found
          exact ⟨_, rfl, settled.upper⟩
      | properties clean rest => exact ih rest found
      | items clean rest => exact ih rest found
      | required rest => exact ih rest found
      | description rest => exact ih rest found
      | enum rest => exact ih rest found

theorem CleanedMembers.properties_of_mem (clean : CleanedMembers text members)
    {properties : List (String × JsonRaw)} (member : ("properties", .obj properties) ∈ members) :
    CleanedProperties text properties := by
  induction members with
  | nil => cases member
  | cons first members ih =>
      cases clean with
      | properties clean rest =>
          cases List.mem_cons.mp member with
          | inl here =>
              cases here
              exact clean
          | inr later => exact ih rest later
      | type settled rest => exact ih rest (by simpa using member)
      | items clean rest => exact ih rest (by simpa using member)
      | required rest => exact ih rest (by simpa using member)
      | description rest => exact ih rest (by simpa using member)
      | enum rest => exact ih rest (by simpa using member)

theorem CleanedMembers.items_of_mem (clean : CleanedMembers text members) {v : JsonRaw}
    (member : ("items", v) ∈ members) : Cleaned text v := by
  induction members with
  | nil => cases member
  | cons first members ih =>
      cases clean with
      | items clean rest =>
          cases List.mem_cons.mp member with
          | inl here =>
              cases here
              exact clean
          | inr later => exact ih rest later
      | type settled rest => exact ih rest (by simpa using member)
      | properties clean rest => exact ih rest (by simpa using member)
      | required rest => exact ih rest (by simpa using member)
      | description rest => exact ih rest (by simpa using member)
      | enum rest => exact ih rest (by simpa using member)

theorem CleanedProperties.of_mem {properties : List (String × JsonRaw)}
    (clean : CleanedProperties text properties) {name : String} {v : JsonRaw}
    (member : (name, v) ∈ properties) : Cleaned text v := by
  induction properties with
  | nil => cases member
  | cons first properties ih =>
      cases clean with
      | cons clean rest =>
          cases List.mem_cons.mp member with
          | inl here =>
              cases here
              exact clean
          | inr later => exact ih rest later

/-- A cleaned schema consists of cleaned schemas. -/
theorem Cleaned.subschema {v s : JsonRaw} (clean : Cleaned text v) (inside : Subschema v s) :
    Cleaned text s := by
  induction inside with
  | root s => exact clean
  | property place entry inside ih =>
      cases clean with
      | other plain => exact absurd rfl (plain _)
      | schema typed clean => exact ih ((clean.properties_of_mem place).of_mem entry)
  | items place inside ih =>
      cases clean with
      | other plain => exact absurd rfl (plain _)
      | schema typed clean => exact ih (clean.items_of_mem place)

theorem Cleaned.object (clean : Cleaned text (.obj members)) : GeminiObject text members := by
  cases clean with
  | other plain => exact absurd rfl (plain _)
  | schema typed clean =>
      obtain ⟨v, found⟩ := Option.isSome_iff_exists.mp typed
      obtain ⟨type, rfl, upper⟩ := clean.type_upper found
      refine ⟨clean.keys, ⟨type, found, upper⟩, fun m member same => ?_⟩
      have known := clean.keys m member
      rw [same] at known
      simp [geminiKeys] at known

end Shape

/-! ### What cleaning leaves is cleaned -/

section Cleaning

variable (text : PythonText) (definitions : List (String × JsonRaw))

theorem cleanType_settled {v type : JsonRaw} (cleaned : cleanType text.toTextFunctions v = some type) :
    ∃ name, type = .str name ∧ SettledType text.toTextFunctions name := by
  have object : geminiTypeMap.lookup "object" = some "OBJECT" := rfl
  have string : geminiTypeMap.lookup "string" = some "STRING" := rfl
  unfold cleanType at cleaned
  split at cleaned
  · cases cleaned
    exact ⟨_, rfl, text.settled_type _⟩
  · split at cleaned
    · next firstType first =>
      cases cleaned
      refine ⟨_, rfl, ?_⟩
      cases found : geminiTypeMap.lookup (text.lower firstType) with
      | none => exact text.settled_name string
      | some name => exact text.settled_name found
    · cases cleaned
  · cases cleaned
    exact ⟨_, rfl, text.settled_name object⟩

theorem cleanType_total {v : JsonRaw} (proper : match v with
      | .str _ => True
      | .arr types => ∀ type ∈ types, ∃ name, type = .str name
      | _ => False) :
    ∃ type, cleanType text.toTextFunctions v = some type := by
  cases v with
  | str name => exact ⟨_, rfl⟩
  | arr types =>
      have first : ∃ name, (types.filter fun x => !x.isStr "null").headD (.str "string") =
          .str name := by
        cases kept : types.filter fun x => !x.isStr "null" with
        | nil => exact ⟨"string", rfl⟩
        | cons type rest =>
            have member : type ∈ types.filter fun x => !x.isStr "null" := by simp [kept]
            exact proper type (List.mem_filter.mp member).1
      obtain ⟨name, first⟩ := first
      exact ⟨_, by rw [cleanType, first]⟩
  | scalar v => cases proper
  | obj members => cases proper

end Cleaning

/-! ## Proper type entries stay proper -/

theorem wellTyped_obj_iff {members : List (String × JsonRaw)} :
    WellTyped (.obj members) ↔ TypeEntries members ∧
      (∀ properties name v, ("properties", .obj properties) ∈ members → (name, v) ∈ properties →
        WellTyped v) ∧
      ∀ v, ("items", v) ∈ members → WellTyped v := by
  constructor
  · intro typed
    exact ⟨typed members (.root _),
      fun properties name v place entry members inside => typed members (.property place entry inside),
      fun v place members inside => typed members (.items place inside)⟩
  · rintro ⟨types, properties, items⟩ others inside
    cases inside with
    | root => exact types
    | property place entry inside => exact properties _ _ _ place entry _ inside
    | items place inside => exact items _ place _ inside

/-- Members that come from well-typed schemas make a well-typed schema. -/
theorem wellTyped_of_members {first second members : List (String × JsonRaw)}
    (one : WellTyped (.obj first)) (two : WellTyped (.obj second))
    (from_ : ∀ m ∈ members, m ∈ first ∨ m ∈ second) : WellTyped (.obj members) := by
  rw [wellTyped_obj_iff] at one two ⊢
  refine ⟨fun v member => ?_, fun properties name v place entry => ?_, fun v place => ?_⟩
  · exact (from_ _ member).elim (one.1 v) (two.1 v)
  · exact (from_ _ place).elim (fun place => one.2.1 properties name v place entry)
      fun place => two.2.1 properties name v place entry
  · exact (from_ _ place).elim (one.2.2 v) (two.2.2 v)

theorem WellTyped.tail {m : String × JsonRaw} {members : List (String × JsonRaw)}
    (typed : WellTyped (.obj (m :: members))) : WellTyped (.obj members) :=
  wellTyped_of_members typed typed fun _ member => .inl (List.mem_cons_of_mem _ member)

theorem mem_mergeMembers {first second : List (String × JsonRaw)} {m : String × JsonRaw}
    (member : m ∈ mergeMembers first second) : m ∈ first ∨ m ∈ second := by
  cases List.mem_append.mp member with
  | inl here => exact .inr here
  | inr there => exact .inl (List.mem_filter.mp there).1

/-! ## Cleaning -/

/-- The definitions that are objects have proper type entries. -/
def DefinitionsTyped (definitions : List (String × JsonRaw)) : Prop :=
  ∀ name target, (name, JsonRaw.obj target) ∈ definitions → WellTyped (.obj target)

theorem resolveLocalRef_mem {ref : String} {definitions target : List (String × JsonRaw)}
    (resolved : resolveLocalRef ref definitions = some target) :
    ∃ name, (name, JsonRaw.obj target) ∈ definitions := by
  unfold resolveLocalRef at resolved
  split at resolved
  · next place name parts =>
    split_ifs at resolved
    split at resolved
    · next found =>
      cases resolved
      obtain ⟨front, back, split, -⟩ := List.lookup_eq_some_iff.mp found
      exact ⟨name, by simp [split]⟩
    · cases resolved
  · cases resolved

/-! ### Member by member -/

section Members

variable (text : TextFunctions) (definitions : List (String × JsonRaw)) (depth : Nat)
  (members : List (String × JsonRaw))

theorem cleanSchema_other {schema : JsonRaw} (plain : ∀ members, schema ≠ .obj members) :
    cleanSchema text definitions depth schema = some schema := by
  cases schema with
  | obj members => exact absurd rfl (plain members)
  | scalar v => simp [cleanSchema]
  | str s => simp [cleanSchema]
  | arr items => simp [cleanSchema]

/-- Without a reference the members are cleaned, and a type is put in front of them
    if they have none. -/
theorem cleanSchema_object (plain : ∀ ref, members.lookup "$ref" ≠ some (.str ref)) :
    cleanSchema text definitions depth (.obj members) =
      (cleanMembers text definitions depth members).map fun cleaned =>
        if (cleaned.lookup "type").isSome then .obj cleaned
        else .obj (("type", .str "OBJECT") :: cleaned) := by
  rw [cleanSchema]
  split
  · next ref found => exact absurd found (plain ref)
  · cases cleanMembers text definitions depth members with
    | none => rfl
    | some cleaned =>
        rw [Option.bind_eq_bind, Option.bind_some, Option.map_some]
        split <;> rfl

theorem cleanMembers_nil : cleanMembers text definitions depth [] = some [] := by
  simp [cleanMembers]

/-- A member that is left out. -/
theorem cleanMembers_skip {k : String} {v : JsonRaw}
    (skipped : k ∈ geminiProhibitedKeys ∨ (k ≠ "type" ∧ (k = "properties" → ∀ p, v ≠ .obj p) ∧
      (k = "items" → ∀ p, v ≠ .obj p) ∧ (k = "required" → ∀ p, v ≠ .arr p) ∧
      (k = "description" → ∀ p, v ≠ .str p) ∧ (k = "enum" → ∀ p, v ≠ .arr p))) :
    cleanMembers text definitions depth ((k, v) :: members) =
      cleanMembers text definitions depth members := by
  rw [cleanMembers.eq_def]
  dsimp only
  have kept : (do
      let cleaned ← some ([] : List (String × JsonRaw))
      let rest ← cleanMembers text definitions depth members
      some (cleaned ++ rest)) = cleanMembers text definitions depth members := by
    cases cleanMembers text definitions depth members <;> rfl
  by_cases prohibited : k ∈ geminiProhibitedKeys
  · rw [if_pos prohibited]
    exact kept
  · obtain ⟨notType, properties, items, required, description, enum⟩ :=
      skipped.resolve_left prohibited
    rw [if_neg prohibited, if_neg notType]
    split_ifs with isProperties isItems
    · split
      · exact absurd rfl (properties isProperties _)
      · exact kept
    · split
      · exact absurd rfl (items isItems _)
      · exact kept
    · split
      · exact absurd rfl (required rfl _)
      · exact absurd rfl (description rfl _)
      · exact absurd rfl (enum rfl _)
      · exact kept

theorem cleanMembers_type (v : JsonRaw) :
    cleanMembers text definitions depth (("type", v) :: members) =
      (cleanType text v).bind fun type =>
        (cleanMembers text definitions depth members).map (("type", type) :: ·) := by
  rw [cleanMembers.eq_def]
  dsimp only
  rw [if_neg (by decide), if_pos rfl]
  cases cleanType text v <;> cases cleanMembers text definitions depth members <;> rfl

theorem cleanMembers_properties (properties : List (String × JsonRaw)) :
    cleanMembers text definitions depth (("properties", .obj properties) :: members) =
      (cleanProperties text definitions depth properties).bind fun cleaned =>
        (cleanMembers text definitions depth members).map (("properties", .obj cleaned) :: ·) := by
  rw [cleanMembers.eq_def]
  dsimp only
  rw [if_neg (by decide), if_neg (by decide), if_pos rfl]
  cases cleanProperties text definitions depth properties <;>
    cases cleanMembers text definitions depth members <;> rfl

theorem cleanMembers_items (items : List (String × JsonRaw)) :
    cleanMembers text definitions depth (("items", .obj items) :: members) =
      (cleanSchema text definitions (depth + 1) (.obj items)).bind fun cleaned =>
        (cleanMembers text definitions depth members).map (("items", cleaned) :: ·) := by
  rw [cleanMembers.eq_def]
  dsimp only
  rw [if_neg (by decide), if_neg (by decide), if_neg (by decide), if_pos rfl]
  cases cleanSchema text definitions (depth + 1) (.obj items) <;>
    cases cleanMembers text definitions depth members <;> rfl

theorem cleanMembers_required (names : List JsonRaw) :
    cleanMembers text definitions depth (("required", .arr names) :: members) =
      (cleanMembers text definitions depth members).map
        (("required", .arr (names.map fun x => .str (text.str x))) :: ·) := by
  rw [cleanMembers.eq_def]
  dsimp only
  rw [if_neg (by decide), if_neg (by decide), if_neg (by decide), if_neg (by decide)]
  cases cleanMembers text definitions depth members <;> rfl

theorem cleanMembers_description (description : String) :
    cleanMembers text definitions depth (("description", .str description) :: members) =
      (cleanMembers text definitions depth members).map (("description", .str description) :: ·) := by
  rw [cleanMembers.eq_def]
  dsimp only
  rw [if_neg (by decide), if_neg (by decide), if_neg (by decide), if_neg (by decide)]
  cases cleanMembers text definitions depth members <;> rfl

theorem cleanMembers_enum (values : List JsonRaw) :
    cleanMembers text definitions depth (("enum", .arr values) :: members) =
      (cleanMembers text definitions depth members).map
        (("enum", .arr (values.map fun x => .str (text.str x))) :: ·) := by
  rw [cleanMembers.eq_def]
  dsimp only
  rw [if_neg (by decide), if_neg (by decide), if_neg (by decide), if_neg (by decide)]
  cases cleanMembers text definitions depth members <;> rfl

theorem cleanProperties_cons (name : String) (v : JsonRaw) (properties : List (String × JsonRaw)) :
    cleanProperties text definitions depth ((name, v) :: properties) =
      (cleanSchema text definitions (depth + 1) v).bind fun cleaned =>
        (cleanProperties text definitions depth properties).map ((name, cleaned) :: ·) := by
  rw [cleanProperties]
  cases cleanSchema text definitions (depth + 1) v <;>
    cases cleanProperties text definitions depth properties <;> rfl

end Members

section Run

variable (text : PythonText) (definitions : List (String × JsonRaw))

/-- What cleaning makes of a schema. -/
structure CleanedFrom (schema r : JsonRaw) : Prop where
  clean : Cleaned text.toTextFunctions r
  object : ∀ members, schema = .obj members → ∃ members', r = .obj members'

variable {text} in
theorem cleanedFrom_obj (schema : List (String × JsonRaw)) {members : List (String × JsonRaw)}
    (clean : Cleaned text.toTextFunctions (.obj members)) :
    CleanedFrom text (.obj schema) (.obj members) := ⟨clean, fun _ _ => ⟨members, rfl⟩⟩

theorem cleaned_object : SettledType text.toTextFunctions "OBJECT" :=
  text.settled_name (show geminiTypeMap.lookup "object" = some "OBJECT" from rfl)

theorem cleaned_bareObject : Cleaned text.toTextFunctions bareObject :=
  .schema rfl (.type (cleaned_object text) .nil)

mutual

/-- Schemas with proper type entries are cleaned, in every depth.  The induction
    is that of the recursion: down the schema, and along the references as far as
    the depth lets them be followed. -/
theorem cleanSchema_total (defined : DefinitionsTyped definitions) (depth : Nat) :
    (schema : JsonRaw) → WellTyped schema →
      ∃ r, cleanSchema text.toTextFunctions definitions depth schema = some r ∧
        CleanedFrom text schema r
  | .scalar v, _ => ⟨.scalar v, cleanSchema_other _ _ _ (by simp), .other (by simp), by simp⟩
  | .str v, _ => ⟨.str v, cleanSchema_other _ _ _ (by simp), .other (by simp), by simp⟩
  | .arr items, _ => ⟨.arr items, cleanSchema_other _ _ _ (by simp), .other (by simp), by simp⟩
  | .obj schema, typed => by
      by_cases plain : ∀ ref, schema.lookup "$ref" ≠ some (.str ref)
      · obtain ⟨members, cleaned, clean⟩ := cleanMembers_total defined depth schema typed
        rw [cleanSchema_object _ _ _ _ plain, cleaned, Option.map_some]
        refine ⟨_, rfl, ?_⟩
        split
        · next typed => exact cleanedFrom_obj schema (.schema typed clean)
        · exact cleanedFrom_obj schema (.schema rfl (.type (cleaned_object text) clean))
      · obtain ⟨ref, found⟩ := not_forall_not.mp plain
        rw [cleanSchema, found]
        dsimp only
        cases resolved : resolveLocalRef ref definitions with
        | none => exact ⟨_, rfl, cleanedFrom_obj schema (cleaned_bareObject text)⟩
        | some target =>
            dsimp only
            by_cases shallow : depth < maxRefDepth
            · rw [if_pos shallow]
              obtain ⟨name, known⟩ := resolveLocalRef_mem resolved
              have merged : WellTyped (.obj (mergeMembers target (schema.filter (·.1 ≠ "$ref")))) :=
                wellTyped_of_members (defined name target known) typed fun m member =>
                  (mem_mergeMembers member).imp_right fun kept => (List.mem_filter.mp kept).1
              obtain ⟨r, cleaned, clean, object⟩ := cleanSchema_total defined (depth + 1)
                (.obj (mergeMembers target (schema.filter (·.1 ≠ "$ref")))) merged
              exact ⟨r, cleaned, clean, fun _ _ => object _ rfl⟩
            · rw [if_neg shallow]
              exact ⟨_, rfl, cleanedFrom_obj schema (cleaned_bareObject text)⟩
termination_by schema => (maxRefDepth - depth, sizeOf schema)
decreasing_by
  · exact deeper (by omega) (by simp)
  · exact Prod.Lex.left _ _ (by omega)

theorem cleanMembers_total (defined : DefinitionsTyped definitions) (depth : Nat) :
    (members : List (String × JsonRaw)) → WellTyped (.obj members) →
      ∃ r, cleanMembers text.toTextFunctions definitions depth members = some r ∧
        CleanedMembers text.toTextFunctions r
  | [], _ => ⟨[], cleanMembers_nil .., .nil⟩
  | (k, v) :: members, typed => by
      obtain ⟨rest, cleaned, clean⟩ := cleanMembers_total defined depth members typed.tail
      by_cases type : k = "type"
      · subst type
        obtain ⟨type, written⟩ := cleanType_total text (typed _ (.root _) v List.mem_cons_self)
        obtain ⟨name, rfl, settled⟩ := cleanType_settled text written
        rw [cleanMembers_type, written, cleaned]
        exact ⟨_, rfl, .type settled clean⟩
      by_cases properties : k = "properties" ∧ ∃ p, v = .obj p
      · obtain ⟨named, properties, is⟩ := properties
        have below : sizeOf properties < sizeOf v := by simp [is]
        have entries : ∀ m ∈ properties, WellTyped m.2 := by
          subst named is
          exact fun m member =>
            (wellTyped_obj_iff.mp typed).2.1 properties m.1 m.2 List.mem_cons_self member
        obtain ⟨props, cleanedProps, cleanProps⟩ :=
          cleanProperties_total defined depth properties entries
        subst named is
        rw [cleanMembers_properties, cleanedProps, cleaned]
        exact ⟨_, rfl, .properties cleanProps clean⟩
      by_cases items : k = "items" ∧ ∃ p, v = .obj p
      · obtain ⟨named, items, is⟩ := items
        have item : WellTyped v := by
          subst named
          exact (wellTyped_obj_iff.mp typed).2.2 v List.mem_cons_self
        obtain ⟨r, cleanedItems, cleanItems, isObject⟩ :=
          cleanSchema_total defined (depth + 1) v item
        subst named is
        obtain ⟨items', rfl⟩ := isObject items rfl
        rw [cleanMembers_items, cleanedItems, cleaned]
        exact ⟨_, rfl, .items cleanItems clean⟩
      by_cases required : k = "required" ∧ ∃ names, v = .arr names
      · obtain ⟨rfl, names, rfl⟩ := required
        have texts : (names.map fun x => JsonRaw.str (text.str x)) =
            (names.map text.str).map .str := by simp
        rw [cleanMembers_required, cleaned, texts]
        exact ⟨_, rfl, .required clean⟩
      by_cases description : k = "description" ∧ ∃ text, v = .str text
      · obtain ⟨rfl, description, rfl⟩ := description
        rw [cleanMembers_description, cleaned]
        exact ⟨_, rfl, .description clean⟩
      by_cases enum : k = "enum" ∧ ∃ values, v = .arr values
      · obtain ⟨rfl, values, rfl⟩ := enum
        have texts : (values.map fun x => JsonRaw.str (text.str x)) =
            (values.map text.str).map .str := by simp
        rw [cleanMembers_enum, cleaned, texts]
        exact ⟨_, rfl, .enum clean⟩
      · rw [cleanMembers_skip _ _ _ _ (.inr ?_)]
        · exact ⟨rest, cleaned, clean⟩
        · exact ⟨type, fun same p is => properties ⟨same, p, is⟩,
            fun same p is => items ⟨same, p, is⟩, fun same p is => required ⟨same, p, is⟩,
            fun same p is => description ⟨same, p, is⟩, fun same p is => enum ⟨same, p, is⟩⟩
termination_by members => (maxRefDepth - depth, sizeOf members)
decreasing_by
  · exact deeper (by omega) (by simp)
  · exact deeper (by omega) (by simp; omega)
  · exact deeper (by omega) (by simp; omega)

theorem cleanProperties_total (defined : DefinitionsTyped definitions) (depth : Nat) :
    (properties : List (String × JsonRaw)) → (∀ m ∈ properties, WellTyped m.2) →
      ∃ r, cleanProperties text.toTextFunctions definitions depth properties = some r ∧
        CleanedProperties text.toTextFunctions r
  | [], _ => ⟨[], by rw [cleanProperties], .nil⟩
  | (name, v) :: properties, typed => by
      obtain ⟨r, cleanedValue, cleanValue⟩ :=
        cleanSchema_total defined (depth + 1) v (typed (name, v) List.mem_cons_self)
      obtain ⟨rest, cleaned, clean⟩ := cleanProperties_total defined depth properties
        fun m member => typed m (List.mem_cons_of_mem _ member)
      rw [cleanProperties_cons, cleanedValue, cleaned]
      exact ⟨_, rfl, .cons cleanValue.clean clean⟩
termination_by properties => (maxRefDepth - depth, sizeOf properties)
decreasing_by
  · exact deeper (by omega) (by simp; omega)
  · exact deeper (by omega) (by simp)

end

mutual

/-- Cleaning leaves a cleaned schema as it is, in every depth and whatever the
    definitions are. -/
theorem cleanSchema_of_cleaned {r : JsonRaw} (depth : Nat) :
    Cleaned text.toTextFunctions r →
      cleanSchema text.toTextFunctions definitions depth r = some r
  | .other plain => cleanSchema_other _ _ _ plain
  | .schema typed clean => by
      have kept := cleanMembers_of_cleaned depth clean
      rw [cleanSchema_object _ _ _ _ clean.no_reference, kept, Option.map_some, if_pos typed]

theorem cleanMembers_of_cleaned {members : List (String × JsonRaw)} (depth : Nat) :
    CleanedMembers text.toTextFunctions members →
      cleanMembers text.toTextFunctions definitions depth members = some members
  | .nil => cleanMembers_nil ..
  | .type settled rest => by
      rw [cleanMembers_type, cleanMembers_of_cleaned depth rest, cleanType, settled.kept]
      rfl
  | .properties clean rest => by
      rw [cleanMembers_properties, cleanMembers_of_cleaned depth rest,
        cleanProperties_of_cleaned depth clean]
      rfl
  | .items clean rest => by
      rw [cleanMembers_items, cleanMembers_of_cleaned depth rest,
        cleanSchema_of_cleaned (depth + 1) clean]
      rfl
  | .required rest => by
      rw [cleanMembers_required, cleanMembers_of_cleaned depth rest, List.map_map]
      simp [text.str_text]
  | .description rest => by
      rw [cleanMembers_description, cleanMembers_of_cleaned depth rest]
      rfl
  | .enum rest => by
      rw [cleanMembers_enum, cleanMembers_of_cleaned depth rest, List.map_map]
      simp [text.str_text]

theorem cleanProperties_of_cleaned {properties : List (String × JsonRaw)} (depth : Nat) :
    CleanedProperties text.toTextFunctions properties →
      cleanProperties text.toTextFunctions definitions depth properties = some properties
  | .nil => by rw [cleanProperties]
  | .cons clean rest => by
      rw [cleanProperties_cons, cleanSchema_of_cleaned (depth + 1) clean,
        cleanProperties_of_cleaned depth rest]
      rfl

end

end Run

/-! ## Whole schemas -/

/-- The definitions are objects, and every type entry of the schema and of its
    definitions is a text or a list of texts. -/
structure ProperSchema (schema : JsonRaw) : Prop where
  definitions : ∀ members, schema = .obj members → ∀ key ∈ ["definitions", "$defs"], ∀ v,
    members.lookup key = some v → ∃ entries, v = .obj entries ∧ DefinitionsTyped entries
  types : WellTyped schema

theorem ProperSchema.entries {members : List (String × JsonRaw)}
    (proper : ProperSchema (.obj members)) (key : String) (place : key ∈ ["definitions", "$defs"]) :
    ∃ entries, (members.lookup key).getD (.obj []) = .obj entries ∧ DefinitionsTyped entries := by
  cases found : members.lookup key with
  | none => exact ⟨[], rfl, fun name target member => absurd member List.not_mem_nil⟩
  | some v =>
      obtain ⟨entries, rfl, typed⟩ := proper.definitions members rfl key place v found
      exact ⟨entries, rfl, typed⟩

theorem schemaDefinitions_typed {members : List (String × JsonRaw)}
    (proper : ProperSchema (.obj members)) :
    ∃ definitions, schemaDefinitions members = some definitions ∧ DefinitionsTyped definitions := by
  obtain ⟨first, firstFound, firstTyped⟩ := proper.entries "definitions" (by simp)
  obtain ⟨second, secondFound, secondTyped⟩ := proper.entries "$defs" (by simp)
  refine ⟨mergeMembers first second, by rw [schemaDefinitions, firstFound, secondFound], ?_⟩
  intro name target member
  exact (mem_mergeMembers member).elim (firstTyped name target) (secondTyped name target)

/-- A cleaned schema has no definitions. -/
theorem schemaDefinitions_cleaned {text : TextFunctions} {members : List (String × JsonRaw)}
    (clean : CleanedMembers text members) : schemaDefinitions members = some [] := by
  have absent (key : String) (unknown : key ∉ geminiKeys) : members.lookup key = none := by
    rw [List.lookup_eq_none_iff]
    intro m member
    simpa using fun same : key = m.1 => unknown (same ▸ clean.keys m member)
  rw [schemaDefinitions, absent "definitions" (by decide), absent "$defs" (by decide)]
  rfl

/-- However the references run, cleaning ends, every schema object of the result is
    one that Gemini takes, and the result is cleaned already. -/
theorem cleanGeminiSchema_clean (text : PythonText) (schema : JsonRaw)
    (proper : ProperSchema schema) :
    ∃ cleaned, cleanGeminiSchema text.toTextFunctions schema = some cleaned ∧
      (∀ members, Subschema cleaned (.obj members) → GeminiObject text.toTextFunctions members) ∧
      cleanGeminiSchema text.toTextFunctions cleaned = some cleaned := by
  have described {cleaned : JsonRaw} (clean : Cleaned text.toTextFunctions cleaned) :
      ∀ members, Subschema cleaned (.obj members) → GeminiObject text.toTextFunctions members :=
    fun members inside => (clean.subschema inside).object
  have other (v : JsonRaw) (plain : ∀ members, v ≠ .obj members) :
      cleanGeminiSchema text.toTextFunctions v = some v := by
    cases v with
    | obj members => exact absurd rfl (plain members)
    | scalar v => rfl
    | str s => rfl
    | arr items => rfl
  by_cases isObject : ∃ members, schema = .obj members
  · obtain ⟨members, rfl⟩ := isObject
    obtain ⟨definitions, found, defined⟩ := schemaDefinitions_typed proper
    obtain ⟨cleaned, ends, clean, object⟩ :=
      cleanSchema_total text definitions defined 0 (.obj members) proper.types
    obtain ⟨members', rfl⟩ := object members rfl
    refine ⟨.obj members', ?_, described clean, ?_⟩
    · rw [cleanGeminiSchema, found]
      exact ends
    · have again := cleanSchema_of_cleaned text [] 0 clean
      cases clean with
      | other plain => exact absurd rfl (plain members')
      | schema typed clean =>
          rw [cleanGeminiSchema, schemaDefinitions_cleaned clean]
          exact again
  · have plain : ∀ members, schema ≠ .obj members := fun members same => isObject ⟨members, same⟩
    exact ⟨schema, other schema plain, described (.other plain), other schema plain⟩

/-! ### A schema that refers to itself -/

/-- The functions on ASCII texts. -/
def asciiText : PythonText where
  toTextFunctions := asciiFunctions
  str_text _ := rfl
  upper_upper s := by
    apply String.toList_injective
    change s.toUpper.toUpper.toList = s.toUpper.toList
    rw [PythonText.toList_toUpper, PythonText.toList_toUpper, List.map_map]
    exact List.map_congr_left fun c _ => Char.toUpper_toUpper_eq_toUpper c
  plain _ _ := ⟨rfl, rfl⟩
  lower_letters s letters c member := by
    have lowered : c.toLower ∈ s.toLower.toList := by
      rw [PythonText.toList_toLower]
      exact List.mem_map_of_mem member
    have alpha := (letters _ lowered).1
    rw [Char.isLower_toLower_eq_isAlpha] at alpha
    simp only [Char.isAlpha, Char.isUpper, Char.isLower, Bool.or_eq_true, Bool.and_eq_true,
      decide_eq_true_eq, ge_iff_le, UInt32.le_iff_toNat_le] at alpha
    have value : c.val.toNat = c.toNat := rfl
    have bounds : 'Z'.val.toNat = 90 ∧ 'z'.val.toNat = 122 := by decide
    omega

/-- A tree whose nodes have a list of children of the same kind. -/
def treeSchema : JsonRaw :=
  .obj [("$defs", .obj [("Node", .obj [("type", .arr [.str "Object", .str "null"]),
      ("properties", .obj [("children", .obj [("type", .str "array"),
        ("items", .obj [("$ref", .str "#/$defs/Node")])])])])]),
    ("$ref", .str "#/$defs/Node")]

theorem treeSchema_proper : ProperSchema treeSchema := by
  have reference : WellTyped (.obj [("$ref", .str "#/$defs/Node")]) := by
    rw [wellTyped_obj_iff]
    simp [TypeEntries]
  have children : WellTyped (.obj [("type", .str "array"),
      ("items", .obj [("$ref", .str "#/$defs/Node")])]) := by
    rw [wellTyped_obj_iff]
    simp [TypeEntries, reference]
  have node : WellTyped (.obj [("type", .arr [.str "Object", .str "null"]),
      ("properties", .obj [("children", .obj [("type", .str "array"),
        ("items", .obj [("$ref", .str "#/$defs/Node")])])])]) := by
    rw [wellTyped_obj_iff]
    refine ⟨by simp [TypeEntries], fun properties name v place member => ?_, by simp⟩
    obtain rfl : properties = [("children", .obj [("type", .str "array"),
        ("items", .obj [("$ref", .str "#/$defs/Node")])])] := by
      simpa using place
    obtain ⟨rfl, rfl⟩ := Prod.mk.inj (List.mem_singleton.mp member)
    exact children
  constructor
  · rintro members ⟨⟩ key place v found
    simp only [List.mem_cons, List.not_mem_nil, or_false] at place
    rcases place with rfl | rfl
    · cases found
    · cases found
      refine ⟨_, rfl, fun name target member => ?_⟩
      simp only [List.mem_cons, List.not_mem_nil, or_false, Prod.mk.injEq] at member
      rw [member.2]
      exact node
  · rw [treeSchema, wellTyped_obj_iff]
    simp [TypeEntries]

theorem cleanGeminiSchema_clean_tree :
    ∃ cleaned, cleanGeminiSchema asciiText.toTextFunctions treeSchema = some cleaned ∧
      (∀ members, Subschema cleaned (.obj members) →
        GeminiObject asciiText.toTextFunctions members) ∧
      cleanGeminiSchema asciiText.toTextFunctions cleaned = some cleaned :=
  cleanGeminiSchema_clean asciiText treeSchema treeSchema_proper

end DuraLLM
