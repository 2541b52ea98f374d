import DuraLLM.Lib.JsonValue
import DuraLLM.Lib.Regex
import DuraLLM.Lib.Substitution

/-! # Redaction of log records

`redact_sensitive_data` goes through a value.  What stands under a sensitive key is
replaced; a text under one of the keys of a prompt is cut to a preview; in every
other text the API keys and then the bearer tokens are masked.
-/

namespace DuraLLM

open String (ofList)

/-- The character table of the patterns: no printable ASCII character is a space, and
    the letters of `bearer` have two cases each. -/
structure LogReaders where
  chars : CharTable
  space_printable : ∀ c, 0x20 < c.toNat → c.toNat < 0x7f → chars.space c = false
  bearer_letters : ∀ c ∈ "bearer".toList, ∀ d, chars.lower d = chars.lower c → d = c ∨ d = c.toUpper

/-! ## `SENSITIVE_KEY_PATTERN` -/

section Keys

open Regex

/-- In front of `$`. -/
def sensitiveKeyPattern : Regex :=
  any (all [folded "api", maybe (oneOf "_-"), folded "key"])
    [all [folded "secret", maybe (oneOf "_-"), folded "key"], folded "authorization",
      folded "bearer", folded "secret", folded "token", folded "password", folded "cookie"]

def isSensitiveKey (lib : LogReaders) (key : String) : Bool :=
  closesText lib.chars sensitiveKeyPattern key

end Keys

/-! ## `SECRET_VALUE_PATTERN` -/

/-- `[a-zA-Z0-9_-]` -/
def isKeyChar (c : Char) : Bool := c.isAlphanum || c = '_' || c = '-'

/-- How the API keys begin, and how many characters follow at least. -/
def secretPrefixes : List (List Char × Nat) :=
  [("sk-".toList, 20), ("gsk_".toList, 20), ("AIza".toList, 30)]

/-- A match at the start of the text: none of it is kept, and it is as long as it
    can be. -/
def secretAt (text : List Char) : Option (Nat × Nat) :=
  secretPrefixes.findSome? fun start =>
    let run := ((text.drop start.1.length).takeWhile isKeyChar).length
    if start.1.isPrefixOf text && start.2 ≤ run then some (0, start.1.length + run) else none

/-! ## `BEARER_PATTERN` -/

section Bearer

variable (lib : LogReaders)

def isBearer (word : List Char) : Bool :=
  word.map lib.chars.lower = "bearer".toList.map lib.chars.lower

/-- A match at the start of the text, of which the first group is kept. -/
def bearerAt (text : List Char) : Option (Nat × Nat) :=
  let spaces := (text.drop 6).takeWhile lib.chars.space
  let token := ((text.drop 6).dropWhile lib.chars.space).takeWhile fun c => !lib.chars.space c
  if isBearer lib (text.take 6) && !spaces.isEmpty && !token.isEmpty then
    some (6 + spaces.length, 6 + spaces.length + token.length)
  else none

end Bearer

/-! ## `redact_sensitive_data` -/

/-- What takes the place of a secret. -/
def secretMarker : List Char := "[REDACTED_API_KEY]".toList

def previewMarker : List Char := "... [TRUNCATED_OBSERVABILITY_PREVIEW]".toList

/-- Characters with something of their own that is carried along. -/
structure Carrier (α : Type) where
  char : α → Char
  ofChar : Char → α
  char_ofChar : ∀ c, char (ofChar c) = c

def Carrier.plain : Carrier Char where
  char := id
  ofChar := id
  char_ofChar _ := rfl

section Texts

variable {α : Type} (carrier : Carrier α)

/-- `SECRET_VALUE_PATTERN.sub("[REDACTED_API_KEY]", text)` -/
def maskSecrets (text : List α) : List α :=
  substitute (fun text => secretAt (text.map carrier.char)) (secretMarker.map carrier.ofChar) 0 text

/-- `BEARER_PATTERN.sub(r"\1[REDACTED_API_KEY]", text)` -/
def maskBearers (lib : LogReaders) (text : List α) : List α :=
  substitute (fun text => bearerAt lib (text.map carrier.char))
    (secretMarker.map carrier.ofChar) 0 text

def maskText (lib : LogReaders) (text : List α) : List α :=
  maskBearers carrier lib (maskSecrets carrier text)

/-- `text[:end]` -/
def sliceTo (stop : Int) (text : List α) : List α :=
  text.take (if stop < 0 then stop + text.length else stop).toNat

def previewText (maxPromptPreviewChars : Int) (text : List α) : List α :=
  if maxPromptPreviewChars < text.length then
    sliceTo maxPromptPreviewChars text ++ previewMarker.map carrier.ofChar
  else text

end Texts

def promptKeys : List String := ["prompt", "messages", "content"]

section Values

variable (lib : LogReaders) (maxPromptPreviewChars : Int)

mutual

def redactSensitiveData : JsonRaw → JsonRaw
  | .obj members => .obj (redactMembers members)
  | .arr items => .arr (redactItems items)
  | .str text => .str (ofList (maskText .plain lib text.toList))
  | .scalar s => .scalar s

def redactItems : List JsonRaw → List JsonRaw
  | [] => []
  | item :: items => redactSensitiveData item :: redactItems items

def redactMembers : List (String × JsonRaw) → List (String × JsonRaw)
  | [] => []
  | (key, value) :: members =>
      (key,
        if isSensitiveKey lib key then .str "[REDACTED]"
        else
          match decide (key ∈ promptKeys), value with
          | true, .str text => .str (ofList (previewText .plain maxPromptPreviewChars text.toList))
          | _, value => redactSensitiveData value) ::
      redactMembers members

end

end Values

end DuraLLM
