import DuraLLM.Lib.JsonAccess
import DuraLLM.Protocol.Ir

/-! # Gemini requests

How a neutral request becomes the payload of a `generateContent` request, and
how the schema of a tool is cleaned for it.  What the language's `str`, `lower`
and `upper` make of their arguments is a parameter.  A raised error is `none`.
-/

namespace DuraLLM

open JsonRaw

/-! ## Schemas -/

structure TextFunctions where
  lower : String → String
  upper : String → String
  str : JsonRaw → String

/-- The functions as they are on ASCII texts. -/
def asciiFunctions : TextFunctions where
  lower := String.toLower
  upper := String.toUpper
  str
    | .str text => text
    | v => String.ofList (v.write .spaced)

def geminiTypeMap : List (String × String) :=
  [("object", "OBJECT"), ("string", "STRING"), ("integer", "INTEGER"), ("number", "NUMBER"),
    ("boolean", "BOOLEAN"), ("array", "ARRAY")]

def geminiProhibitedKeys : List String :=
  ["$schema", "additionalProperties", "default", "title", "$id", "$comment", "examples",
    "definitions", "$defs"]

def maxRefDepth : Nat := 8

def bareObject : JsonRaw := .obj [("type", .str "OBJECT")]

/-- `{**first, **second}`; the members of the second count. -/
def mergeMembers (first second : List (String × JsonRaw)) : List (String × JsonRaw) :=
  second ++ first.filter fun m => (second.lookup m.1).isNone

def resolveLocalRef (ref : String) (definitions : List (String × JsonRaw)) :
    Option (List (String × JsonRaw)) :=
  match ref.splitOn "/" with
  | ["#", place, name] =>
      if place = "$defs" ∨ place = "definitions" then
        match definitions.lookup name with
        | some (.obj target) => some target
        | _ => none
      else none
  | _ => none

def cleanType (text : TextFunctions) : JsonRaw → Option JsonRaw
  | .str v => some (.str ((geminiTypeMap.lookup (text.lower v)).getD (text.upper v)))
  | .arr v =>
      match (v.filter fun x => !x.isStr "null").headD (.str "string") with
      | .str firstType => some (.str ((geminiTypeMap.lookup (text.lower firstType)).getD "STRING"))
      | _ => none
  | _ => some (.str "OBJECT")

/-- References are followed down to a depth, and everything else is smaller. -/
theorem deeper {left right small large : Nat} (le : left ≤ right) (less : small < large) :
    Prod.Lex (fun a b : Nat => a < b) (fun a b : Nat => a < b) (left, small) (right, large) :=
  Prod.Lex.right' _ le less

mutual

/-- A schema with its local references put in place of them, down to a depth. -/
def cleanSchema (text : TextFunctions) (definitions : List (String × JsonRaw)) (depth : Nat) :
    JsonRaw → Option JsonRaw
  | .obj schema =>
      match schema.lookup "$ref" with
      | some (.str ref) =>
          match resolveLocalRef ref definitions with
          | some target =>
              if depth < maxRefDepth then
                cleanSchema text definitions (depth + 1)
                  (.obj (mergeMembers target (schema.filter (·.1 ≠ "$ref"))))
              else some bareObject
          | none => some bareObject
      | _ => do
          let cleaned ← cleanMembers text definitions depth schema
          if (cleaned.lookup "type").isSome then some (.obj cleaned)
          else some (.obj (("type", .str "OBJECT") :: cleaned))
  | schema => some schema
termination_by schema => (maxRefDepth - depth, sizeOf schema)
decreasing_by
  · exact Prod.Lex.left _ _ (by omega)
  · exact deeper (by omega) (by simp)

/-- The members of a schema that Gemini knows. -/
def cleanMembers (text : TextFunctions) (definitions : List (String × JsonRaw)) (depth : Nat) :
    List (String × JsonRaw) → Option (List (String × JsonRaw))
  | [] => some []
  | (k, v) :: members => do
      let cleaned ←
        if k ∈ geminiProhibitedKeys then some []
        else if k = "type" then (cleanType text v).map fun v => [("type", v)]
        else if k = "properties" then
          match v with
          | .obj properties =>
              (cleanProperties text definitions depth properties).map fun v =>
                [("properties", .obj v)]
          | _ => some []
        else if k = "items" then
          match v with
          | .obj items =>
              (cleanSchema text definitions (depth + 1) (.obj items)).map fun v => [("items", v)]
          | _ => some []
        else
          match k, v with
          | "required", .arr v => some [("required", .arr (v.map fun x => .str (text.str x)))]
          | "description", .str v => some [("description", .str v)]
          | "enum", .arr v => some [("enum", .arr (v.map fun x => .str (text.str x)))]
          | _, _ => some []
      let rest ← cleanMembers text definitions depth members
      some (cleaned ++ rest)
termination_by members => (maxRefDepth - depth, sizeOf members)
decreasing_by
  · exact deeper (by omega) (by simp)
  · exact deeper (by omega) (by simp; omega)
  · exact deeper (by omega) (by simp; omega)

def cleanProperties (text : TextFunctions) (definitions : List (String × JsonRaw)) (depth : Nat) :
    List (String × JsonRaw) → Option (List (String × JsonRaw))
  | [] => some []
  | (k, v) :: properties => do
      let cleaned ← cleanSchema text definitions (depth + 1) v
      let rest ← cleanProperties text definitions depth properties
      some ((k, cleaned) :: rest)
termination_by properties => (maxRefDepth - depth, sizeOf properties)
decreasing_by
  · exact deeper (by omega) (by simp; omega)
  · exact deeper (by omega) (by simp)

end

/-- The definitions of a schema, those under `$defs` first. -/
def schemaDefinitions (schema : List (String × JsonRaw)) : Option (List (String × JsonRaw)) :=
  match (schema.lookup "definitions").getD (.obj []), (schema.lookup "$defs").getD (.obj []) with
  | .obj definitions, .obj defs => some (mergeMembers definitions defs)
  | _, _ => none

def cleanGeminiSchema (text : TextFunctions) : JsonRaw → Option JsonRaw
  | .obj schema => do
      let definitions ← schemaDefinitions schema
      cleanSchema text definitions 0 (.obj schema)
  | schema => some schema

/-! ## Payloads -/

inductive GeminiPart where
  | text (text : String)
  | functionCall (name : String) (args : JsonValue)
  | functionResponse (name output : String)

structure GeminiContent where
  role : String
  parts : List GeminiPart

structure FunctionDeclaration where
  name : String
  description : String
  parameters : JsonRaw

structure GeminiPayload where
  contents : List GeminiContent
  systemInstruction : Option String := none
  functionDeclarations : List FunctionDeclaration := []
  toolConfig : Option JsonRaw := none
  maxOutputTokens : Option Int := none
  temperature : Option ℚ := none

/-- A `function` that is no object has no name. -/
def toolChoiceToGemini (toolChoice : JsonRaw) : Option JsonRaw :=
  let config (mode : String) (names : List JsonRaw) : JsonRaw :=
    .obj [("functionCallingConfig", .obj (("mode", .str mode) ::
      (if names = [] then [] else [("allowedFunctionNames", .arr names)])))]
  match toolChoice with
  | .str mode =>
      if mode = "auto" then some (config "AUTO" [])
      else if mode = "required" then some (config "ANY" [])
      else if mode = "none" then some (config "NONE" [])
      else none
  | .obj members =>
      let kind := (members.lookup "type").getD null
      let name := (members.lookup "name").getD null
      let functionName :=
        match members.lookup "function" with
        | some (.obj function) => (function.lookup "name").getD null
        | _ => null
      if kind.isStr "auto" then some (config "AUTO" [])
      else if kind.isStr "none" then some (config "NONE" [])
      else if kind.isStr "any" then some (config "ANY" [])
      else if kind.isStr "tool" && name.truthy then some (config "ANY" [name])
      else if kind.isStr "function" && functionName.truthy then some (config "ANY" [functionName])
      else none
  | _ => none

/-- The instruction, or the text of the first system message. -/
def effectiveSystemInstruction (req : NormalizedRequest JsonValue) : Option String :=
  if orText req.systemInstruction "" ≠ "" then req.systemInstruction
  else (req.messages.find? (·.role == "system")).map (·.content)

def functionResponse (tr : NormalizedToolResult) : GeminiPart :=
  .functionResponse (orText tr.toolName "tool") tr.content

def partsOrEmpty (parts : List GeminiPart) : List GeminiPart :=
  match parts with
  | [] => [.text ""]
  | parts => parts

/-- A message of any other role is dropped. -/
def messageToGemini (m : NormalizedMessage JsonValue) : List GeminiContent :=
  let text : List GeminiPart := if m.content ≠ "" then [.text m.content] else []
  if m.role = "system" then []
  else if m.role = "user" then
    [{ role := "user", parts := partsOrEmpty (text ++ m.toolResults.map functionResponse) }]
  else if m.role = "assistant" then
    [{ role := "model"
       parts :=
        partsOrEmpty (text ++ m.toolCalls.map fun tc => .functionCall tc.name tc.arguments) }]
  else if m.role = "tool" then
    (m.toolResults.map fun tr => { role := "user", parts := [functionResponse tr] }) ++
      (if m.toolResults = [] ∧ m.content ≠ "" then
        [{ role := "user", parts := [.functionResponse (orText m.name "tool") m.content] }]
      else [])
  else []

def irToGeminiRequest (text : TextFunctions) (req : NormalizedRequest JsonValue) :
    Option GeminiPayload := do
  let functionDeclarations ← req.tools.mapM fun t => do
    let parameters ← cleanGeminiSchema text t.parameters.raw
    some { name := t.name, description := t.description, parameters }
  some
    { contents := req.messages.flatMap messageToGemini
      systemInstruction := (effectiveSystemInstruction req).filter (· ≠ "")
      functionDeclarations
      toolConfig :=
        if req.tools = [] then none else (req.toolChoice.map (·.raw)).bind toolChoiceToGemini
      maxOutputTokens := (req.maxOutputTokens.filter (· ≠ 0)).map (min 8192)
      temperature := req.temperature }

section Sent

variable {text : TextFunctions} {req : NormalizedRequest JsonValue} {payload : GeminiPayload}

theorem contents_of_sent (sent : irToGeminiRequest text req = some payload) :
    payload.contents = req.messages.flatMap messageToGemini := by
  obtain ⟨declarations, -, made⟩ := Option.bind_eq_some_iff.mp sent
  rw [← Option.some.inj made]

theorem systemInstruction_of_sent (sent : irToGeminiRequest text req = some payload) :
    payload.systemInstruction = (effectiveSystemInstruction req).filter (· ≠ "") := by
  obtain ⟨declarations, -, made⟩ := Option.bind_eq_some_iff.mp sent
  rw [← Option.some.inj made]

end Sent

end DuraLLM
