import DuraLLM.Execution.Effects
import DuraLLM.Lib.DynJson
import DuraLLM.Protocol.Ir
import Mathlib.Data.List.Infix

/-! # The tool call validator

`ToolCallValidator`: how the arguments of a tool call are read, repaired and
checked against the parameter schema of the tool.

The recursion through a schema works in place.  Here a check answers with what
has become of the value, the notes it has appended to the list of
normalizations, and how it ended; what it did to the value before it failed
stays.  `depth` bounds the recursion and is chosen from the schema.
-/

namespace DuraLLM

/-- The report with the fields that are there for the audit only. -/
structure ToolCallReport (F X : Type) extends ToolValidationReport (DynEntries F X) where
  toolName : String
  rawArguments : String

structure ToolCallValidator where
  strict : Bool := true
  allowSyntacticRepairs : Bool := true
  /-- Semantic guessing is forbidden by default. -/
  allowSemanticRepairs : Bool := false

/-- A parameter schema: a dictionary, as `json.loads` makes them. -/
structure ToolSchema (F X : Type) where
  members : DynEntries F X
  proper : (DynValue.dict members).Proper

/-! ## Syntactic normalization -/

namespace SyntaxRepair

/-- The characters of the language tag of a code fence. -/
def tagChar (c : Char) : Bool := c.isAlphanum || c = '_' || c = '-'

def fence : List Char := ['\x60', '\x60', '\x60']

def stripSpace (chars : List Char) : List Char := (chars.dropWhile isSpace).rdropWhile isSpace

/-- The opening fence with its language tag and the blanks behind it. -/
def stripOpeningFence (chars : List Char) : List Char :=
  ((chars.drop fence.length).dropWhile tagChar).dropWhile isSpace

/-- The closing fence with the blanks before it. -/
def stripClosingFence (chars : List Char) : List Char :=
  if fence <:+ chars then (chars.take (chars.length - fence.length)).rdropWhile isSpace
  else chars

/-- The text without blanks around it and without the code fence, if it begins with one. -/
def stripFences (chars : List Char) : List Char :=
  let cleaned := stripSpace chars
  if fence <+: cleaned then stripClosingFence (stripOpeningFence cleaned) else cleaned

/-- Only blanks stand before the next closing bracket. -/
def closes : List Char → Bool
  | [] => false
  | c :: rest => if isSpace c then closes rest else c = ']' || c = '\x7d'

/-- `dropping` is set behind a comma that was removed, as long as blanks follow. -/
def stripCommasFrom (dropping : Bool) : List Char → List Char
  | [] => []
  | c :: rest =>
      if dropping && isSpace c then stripCommasFrom true rest
      else if c = ',' && closes rest then stripCommasFrom true rest
      else c :: stripCommasFrom false rest

/-- Commas before a closing bracket go, with the blanks behind them. -/
def stripTrailingCommas (chars : List Char) : List Char := stripCommasFrom false chars

end SyntaxRepair

section

variable {F X : Type} [DecidableEq X]

open SyntaxRepair in
def normalizeJsonSyntax (rt : DynRuntime F X) (raw : String) :
    Option (DynEntries F X) × List String :=
  if raw.toList.all isSpace then (some [], ["empty_to_dict"])
  else
    let fenced := stripFences raw.toList
    let cleaned := stripTrailingCommas fenced
    let normalizations :=
      (if fence <+: stripSpace raw.toList then ["strip_markdown_fences"] else []) ++
        (if cleaned ≠ fenced then ["strip_trailing_commas"] else [])
    match rt.loads false (String.ofList cleaned) with
    | some (.dict parsed) => (some parsed, normalizations)
    | some _ => (none, ["non_dict_json"])
    | none =>
        match rt.literalEval (String.ofList cleaned) with
        | some (.dict parsed) => (some parsed, normalizations ++ ["python_dict_to_json"])
        | _ => (none, ["unparseable_json"])

/-! ## Checks of values -/

inductive Verdict where
  | accepted
  | rejected (message : String)
  | raised (error : DynError)
  deriving DecidableEq

/-- What a check leaves behind. -/
structure Checked (α : Type) where
  target : α
  notes : List String := []
  verdict : Verdict := .accepted

/-- The types that a schema can declare. -/
inductive DeclaredType where
  | integer
  | number
  | boolean
  | string
  | array
  | object
  | other
  deriving DecidableEq, Repr

def DeclaredType.ofName (name : String) : DeclaredType :=
  if name = "integer" then .integer
  else if name = "number" ∨ name = "float" then .number
  else if name = "boolean" then .boolean
  else if name = "string" then .string
  else if name = "array" then .array
  else if name = "object" then .object
  else .other

def declaredType (spec : DynEntries F X) : DeclaredType :=
  match Entries.get (.text "type") spec with
  | some (.str name) => .ofName name
  | _ => .other

/-- How a scalar fares under its declared type. -/
inductive ScalarCheck (F X : Type) where
  | keeps
  | converts (value : DynValue F X) (how : String)
  | refuses (message : String)
  | raises (error : DynError)

section Scalars

variable (validator : ToolCallValidator) (rt : DynRuntime F X) (fieldName : String)

/-- The message for a value of another type. -/
def mismatch (expected : String) (val : DynValue F X) : ScalarCheck F X :=
  .refuses ("Property '" ++ fieldName ++ "' expected " ++ expected ++ ", got " ++ rt.typeName val)

/-- A truth value is an integer of the language. -/
def checkInteger (val : DynValue F X) : ScalarCheck F X :=
  match val with
  | .int _ | .bool _ => .keeps
  | .str text =>
      if rt.isDigitText text && validator.allowSyntacticRepairs then
        match rt.intOfDigits text with
        | some n => .converts (.int n) "_str_to_int"
        | none => .raises .valueError
      else mismatch rt fieldName "integer" val
  | _ => mismatch rt fieldName "integer" val

def checkNumber (val : DynValue F X) : ScalarCheck F X :=
  match val with
  | .int _ | .bool _ | .float _ => .keeps
  | .str text =>
      if validator.allowSyntacticRepairs then
        match rt.parseFloat text with
        | some f => .converts (.float f) "_str_to_number"
        | none =>
            .refuses ("Property '" ++ fieldName ++ "' expected number, got string '" ++ text ++ "'")
      else mismatch rt fieldName "number" val
  | _ => mismatch rt fieldName "number" val

def checkBoolean (val : DynValue F X) : ScalarCheck F X :=
  match val with
  | .bool _ => .keeps
  | .str text =>
      if (text.toLower = "true" ∨ text.toLower = "false") ∧ validator.allowSyntacticRepairs then
        .converts (.bool (text.toLower = "true")) "_str_to_bool"
      else mismatch rt fieldName "boolean" val
  | _ => mismatch rt fieldName "boolean" val

def checkString (val : DynValue F X) : ScalarCheck F X :=
  match val with
  | .str _ => .keeps
  | .bool b =>
      if validator.allowSyntacticRepairs then
        .converts (.str (if b then "True" else "False")) "_to_str"
      else mismatch rt fieldName "string" val
  | .int n =>
      if validator.allowSyntacticRepairs then
        match rt.intStr n with
        | some text => .converts (.str text) "_to_str"
        | none => .raises .valueError
      else mismatch rt fieldName "string" val
  | .float f =>
      if validator.allowSyntacticRepairs then .converts (.str (rt.floatStr f)) "_to_str"
      else mismatch rt fieldName "string" val
  | _ => mismatch rt fieldName "string" val

end Scalars

def ScalarCheck.checked (fieldName : String) (val : DynValue F X) :
    ScalarCheck F X → Checked (DynValue F X)
  | .keeps => { target := val }
  | .converts value how => { target := value, notes := ["coerce_" ++ fieldName ++ how] }
  | .refuses message => { target := val, verdict := .rejected message }
  | .raises error => { target := val, verdict := .raised error }

/-! ## Checks of objects -/

/-- The suffix of a message about an object that is not the root. -/
def fieldDesc (pathPrefix : String) : String :=
  if pathPrefix = "" then "" else " at '" ++ pathPrefix ++ "'"

def fieldOf (rt : DynRuntime F X) (pathPrefix : String) (name : DynKey X) : String :=
  if pathPrefix = "" then rt.keyStr name else pathPrefix ++ "." ++ rt.keyStr name

def itemField (fieldName : String) (index : Nat) : String :=
  fieldName ++ "[" ++ toString index ++ "]"

/-- `key in container` -/
def holdsKey (rt : DynRuntime F X) (container : DynValue F X) (key : DynKey X) :
    Except DynError Bool :=
  match container, key with
  | .dict entries, key => .ok (Entries.get key entries).isSome
  | .list items, key => .ok (items.any fun item => rt.asKey item = some key)
  | .str text, .text part => .ok (part.toList <:+: text.toList)
  | _, _ => .error .typeError

/-- `value in target`, where only values that can be keys may be asked for. -/
def presentIn (rt : DynRuntime F X) (target : DynEntries F X) (value : DynValue F X) :
    Except DynError Bool :=
  match rt.asKey value with
  | some key => .ok (Entries.get key target).isSome
  | none => .error .typeError

/-- `[x for x in values if not held(x)]` -/
def lacking {α : Type} (held : α → Except DynError Bool) : List α → Except DynError (List α)
  | [] => .ok []
  | value :: values => do
      let here ← held value
      let rest ← lacking held values
      return if here then rest else value :: rest

def propertiesOf (schema : DynEntries F X) : DynValue F X :=
  (Entries.get (.text "properties") schema).getD (.dict [])

def requiredOf (schema : DynEntries F X) : DynValue F X :=
  (Entries.get (.text "required") schema).getD (.list [])

def closedToExtras (schema : DynEntries F X) : Bool :=
  match Entries.get (.text "additionalProperties") schema with
  | some (.bool false) => true
  | _ => false

/-- The required keys and the keys beyond the declared ones: how an object fails
    on its keys, if it does. -/
def checkKeys (rt : DynRuntime F X) (schema target : DynEntries F X) (pathPrefix : String) :
    Verdict :=
  match rt.items (requiredOf schema) with
  | none => .raised .typeError
  | some requiredKeys =>
      match lacking (presentIn rt target) requiredKeys with
      | .error error => .raised error
      | .ok (key :: missing) =>
          .rejected ("Missing required argument(s)" ++ fieldDesc pathPrefix ++ ": " ++
            rt.reprList (key :: missing))
      | .ok [] =>
          if closedToExtras schema then
            match lacking (holdsKey rt (propertiesOf schema)) (Entries.keys target) with
            | .error error => .raised error
            | .ok [] => .accepted
            | .ok (key :: extra) =>
                .rejected ("Disallowed additional argument(s)" ++ fieldDesc pathPrefix ++ ": " ++
                  rt.reprList ((key :: extra).map DynRuntime.keyValue))
          else .accepted

section Loops

/-- The items of an array; each has to be an object. -/
def checkItems (rt : DynRuntime F X)
    (checkObject : DynEntries F X → String → Checked (DynEntries F X)) (fieldName : String) :
    Nat → List (DynValue F X) → Checked (List (DynValue F X))
  | _, [] => { target := [] }
  | index, .dict entries :: items =>
      let first := checkObject entries (itemField fieldName index)
      match first.verdict with
      | .accepted =>
          let rest := checkItems rt checkObject fieldName (index + 1) items
          { rest with
            target := .dict first.target :: rest.target
            notes := first.notes ++ rest.notes }
      | verdict => { target := .dict first.target :: items, notes := first.notes, verdict }
  | index, item :: items =>
      { target := item :: items
        verdict := .rejected ("Item " ++ toString index ++ " in array '" ++ fieldName ++
          "' expected object, got " ++ rt.typeName item) }

/-- The declared properties that are there. -/
def checkProperties (rt : DynRuntime F X)
    (checkValue : DynValue F X → String → DynValue F X → Checked (DynValue F X))
    (pathPrefix : String) : DynEntries F X → DynEntries F X → Checked (DynEntries F X)
  | [], target => { target }
  | (propName, propSpec) :: properties, target =>
      match Entries.get propName target with
      | none => checkProperties rt checkValue pathPrefix properties target
      | some val =>
          let first := checkValue propSpec (fieldOf rt pathPrefix propName) val
          let target := Entries.set propName first.target target
          match first.verdict with
          | .accepted =>
              let rest := checkProperties rt checkValue pathPrefix properties target
              { rest with notes := first.notes ++ rest.notes }
          | verdict => { target, notes := first.notes, verdict }

end Loops

section Schemas

variable (validator : ToolCallValidator) (rt : DynRuntime F X)

/-- The item schema of an array whose items have to be objects. -/
def objectItems (spec : DynEntries F X) : Option (DynEntries F X) :=
  match Entries.get (.text "items") spec with
  | some (.dict itemSpec) =>
      if ((Entries.get (.text "type") itemSpec).any (·.isStr "object")) then some itemSpec else none
  | _ => none

/-- Only schemas with properties or required keys are gone into. -/
def goesInto (spec : DynEntries F X) : Bool :=
  (Entries.get (.text "properties") spec).any rt.truthy ||
    (Entries.get (.text "required") spec).any rt.truthy

/-- One value under the schema of its property; `checkObject` checks objects inside. -/
def checkValue (checkObject : DynEntries F X → DynEntries F X → String → Checked (DynEntries F X))
    (propSpec : DynValue F X) (fieldName : String) (val : DynValue F X) :
    Checked (DynValue F X) :=
  match propSpec with
  | .dict spec =>
      match declaredType spec with
      | .integer => (checkInteger validator rt fieldName val).checked fieldName val
      | .number => (checkNumber validator rt fieldName val).checked fieldName val
      | .boolean => (checkBoolean validator rt fieldName val).checked fieldName val
      | .string => (checkString validator rt fieldName val).checked fieldName val
      | .array =>
          match val with
          | .list items =>
              match objectItems spec with
              | some itemSpec =>
                  let checked := checkItems rt (checkObject itemSpec) fieldName 0 items
                  { checked with target := .list checked.target }
              | none => { target := val }
          | _ => (mismatch rt fieldName "array" val).checked fieldName val
      | .object =>
          match val with
          | .dict entries =>
              if goesInto rt spec then
                let checked := checkObject spec entries fieldName
                { checked with target := .dict checked.target }
              else { target := val }
          | _ => (mismatch rt fieldName "object" val).checked fieldName val
      | .other => { target := val }
  | _ => { target := val, verdict := .raised .attributeError }

/-- `_validate_schema` -/
def validateSchema : Nat → DynEntries F X → DynEntries F X → String → Checked (DynEntries F X)
  | 0, _, target, _ => { target, verdict := .raised .recursionError }
  | depth + 1, schema, target, pathPrefix =>
      match checkKeys rt schema target pathPrefix with
      | .accepted =>
          match propertiesOf schema with
          | .dict properties =>
              checkProperties rt (checkValue validator rt (validateSchema depth)) pathPrefix
                properties target
          | _ => { target, verdict := .raised .attributeError }
      | verdict => { target, verdict }

end Schemas

/-! ## Tool calls -/

section Calls

variable (validator : ToolCallValidator) (rt : DynRuntime F X)

/-- The raw text of the report. -/
def rawText (arguments : DynValue F X) : Except DynError String :=
  match arguments with
  | .str text => .ok text
  | _ => rt.dumps (if rt.truthy arguments then arguments else .dict [])

/-- The arguments as a dictionary, if they are one or can be read as one. -/
def parseArguments (arguments : DynValue F X) : Option (DynEntries F X) × List String :=
  match arguments with
  | .dict entries => (some entries, [])
  | .str text =>
      match rt.loads false text with
      | some (.dict parsed) => (some parsed, [])
      | some _ => (none, [])
      | none => if validator.allowSyntacticRepairs then normalizeJsonSyntax rt text else (none, [])
  | _ => (none, [])

/-- `schema.get("parameters") or schema`, unless there is no schema. -/
def schemaParams (schema : Option (ToolSchema F X)) : Option (DynValue F X) :=
  match schema with
  | none => none
  | some schema =>
      if schema.members.isEmpty then none
      else
        match Entries.get (.text "parameters") schema.members with
        | some parameters => if rt.truthy parameters then some parameters else some (.dict schema.members)
        | none => some (.dict schema.members)

def wrappers : List String := ["parameters", "arguments", "input"]

/-- An object that is nothing but an envelope of this name. -/
def envelope (wrapper : String) (args : DynEntries F X) : Option (DynEntries F X) :=
  match args with
  | [(key, .dict inner)] => if key = .text wrapper then some inner else none
  | _ => none

/-- At most one envelope is taken off, and none that is declared. -/
def unwrapEnvelope (expectedProps : DynValue F X) (args : DynEntries F X) :
    List String → Except DynError (DynEntries F X × List String)
  | [] => .ok (args, [])
  | wrapper :: others =>
      match envelope wrapper args with
      | none => unwrapEnvelope expectedProps args others
      | some inner => do
          if ← holdsKey rt expectedProps (.text wrapper) then unwrapEnvelope expectedProps args others
          else return (inner, ["unwrap_" ++ wrapper ++ "_envelope"])

/-- The object that is checked, with the note of an envelope that was taken off. -/
def unwrapped (params parsed : DynEntries F X) : Except DynError (DynEntries F X × List String) :=
  if validator.allowSyntacticRepairs then unwrapEnvelope rt (propertiesOf params) parsed wrappers
  else .ok (parsed, [])

/-- The check against the parameters of the tool. -/
def checkRoot (params base : DynEntries F X) : Checked (DynEntries F X) :=
  validateSchema validator rt ((DynValue.dict params).depth + 1) params base ""

/-- What the caller's dictionary holds after the working copy was checked: the
    copy is a flat one, so the containers in it are the caller's. -/
def sharedWith (before after : DynEntries F X) : DynEntries F X :=
  List.zipWith (fun old new => if old.2.isContainer then new else old) before after

/-- The outcome of a call and the caller's arguments after it. -/
structure ToolCallRun (F X : Type) where
  result : Except DynError (ToolCallReport F X)
  arguments : DynValue F X

/-- The caller's arguments when the checked dictionary was taken from them. -/
def argumentsAfter (arguments : DynValue F X) (base checked : DynEntries F X) (unwrapped : Bool) :
    DynValue F X :=
  match arguments with
  | .dict entries =>
      if unwrapped then .dict (entries.map fun entry => (entry.1, .dict (sharedWith base checked)))
      else .dict (sharedWith base checked)
  | _ => arguments

def unparsedMessage : String :=
  "Arguments cannot be parsed into valid JSON and semantic guessing is disabled"

/-- Steps 3 and 4 and the report. -/
def checkParsed (toolName rawArguments : String) (arguments : DynValue F X)
    (parsed : DynEntries F X) (repairs : List String) (schema : Option (ToolSchema F X)) :
    ToolCallRun F X :=
  let report (checked : DynEntries F X) (normalizations : List String) : ToolCallReport F X :=
    { toolName
      status := if normalizations = [] then .valid else .normalized
      validatedArguments := checked
      rawArguments
      normalizationsApplied := normalizations }
  match schemaParams rt schema with
  | none => { result := .ok (report parsed repairs), arguments }
  | some (.dict params) =>
      match unwrapped validator rt params parsed with
      | .error error => { result := .error error, arguments }
      | .ok (base, unwrapping) =>
          let checked := checkRoot validator rt params base
          let normalizations := repairs ++ unwrapping ++ checked.notes
          { arguments := argumentsAfter arguments base checked.target (unwrapping ≠ [])
            result :=
              match checked.verdict with
              | .accepted => .ok (report checked.target normalizations)
              | .rejected message =>
                  .ok { report checked.target normalizations with
                    status := .invalid
                    errorMessage := some message }
              | .raised error => .error error }
  | some _ => { result := .error .attributeError, arguments }

def validateToolCall (toolName : String) (arguments : DynValue F X)
    (schema : Option (ToolSchema F X)) (knownTools : Option (List String)) : ToolCallRun F X :=
  match rawText rt arguments with
  | .error error => { result := .error error, arguments }
  | .ok rawArguments =>
      match knownTools.filter fun known => toolName ∉ known with
      | some known =>
          { arguments
            result := .ok
              { toolName, rawArguments
                status := .invalid
                validatedArguments := []
                errorMessage := some ("Tool '" ++ toolName ++ "' is not in active tool catalog " ++
                  rt.reprList (known.map .str)) } }
      | none =>
          match parseArguments validator rt arguments with
          | (some parsed, repairs) =>
              checkParsed validator rt toolName rawArguments arguments parsed repairs schema
          | (none, _) =>
              { arguments
                result := .ok
                  (if validator.strict ∨ ¬validator.allowSemanticRepairs then
                    { toolName, rawArguments
                      status := .unsafeToRepair
                      validatedArguments := []
                      errorMessage := some unparsedMessage }
                  else
                    { toolName, rawArguments
                      status := .invalid
                      validatedArguments := []
                      errorMessage := some "Malformed arguments" }) }

end Calls

end

end DuraLLM
