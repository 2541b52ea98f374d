import Mathlib.Tactic.TypeStar

/-! # JSON text as a column type

A store that keeps objects as JSON text relies on two facts only: reading back
what was written gives the same object, and the empty text is not JSON.  A
`JsonText` is text that decodes, so a row holding one can always be read. -/

/-- How a serializer writes an object: with sorted keys and blanks between the
    items, with sorted keys and no blanks, or with blanks and the keys and the
    characters as they are. -/
inductive JsonStyle where
  | spaced
  | compact
  | verbatim

/-- Objects a JSON library writes as text and reads back. -/
class JsonCodec (α : Type) where
  dumps : JsonStyle → α → String
  loads : String → Option α
  loads_dumps : ∀ style v, loads (dumps style v) = some v
  loads_empty : loads "" = none

/-- No two objects have the same text. -/
theorem JsonCodec.dumps_injective {α : Type} [JsonCodec α] (style : JsonStyle) {v w : α}
    (same : dumps style v = dumps style w) : v = w := by
  have read := congrArg (loads (α := α)) same
  rw [loads_dumps, loads_dumps] at read
  exact Option.some.inj read

structure JsonText (α : Type) [JsonCodec α] where
  text : String
  decodes : (JsonCodec.loads (α := α) text).isSome

namespace JsonText

variable {α : Type} [JsonCodec α]

def encode (v : α) : JsonText α :=
  ⟨JsonCodec.dumps .compact v, by rw [JsonCodec.loads_dumps]; rfl⟩

def decode (t : JsonText α) : α := (JsonCodec.loads t.text).get t.decodes

@[simp] theorem decode_encode (v : α) : (encode v).decode = v := by
  simp only [decode, encode, JsonCodec.loads_dumps, Option.get_some]

/-- A test for emptiness never fires on stored JSON. -/
theorem text_ne_empty (t : JsonText α) : t.text ≠ "" := by
  intro empty
  have decodes := t.decodes
  rw [empty, JsonCodec.loads_empty] at decodes
  cases decodes

end JsonText

/-- The JSON objects with a single boolean member `ok`. -/
structure OkObject where
  ok : Bool
  deriving DecidableEq, Repr

namespace OkObject

def text : JsonStyle → Bool → String
  | .spaced, true | .verbatim, true => "\x7b\"ok\": true\x7d"
  | .spaced, false | .verbatim, false => "\x7b\"ok\": false\x7d"
  | .compact, true => "\x7b\"ok\":true\x7d"
  | .compact, false => "\x7b\"ok\":false\x7d"

def parse (t : String) : Option OkObject :=
  if t = text .spaced true ∨ t = text .compact true then some ⟨true⟩
  else if t = text .spaced false ∨ t = text .compact false then some ⟨false⟩
  else none

instance : JsonCodec OkObject where
  dumps style v := text style v.ok
  loads := parse
  loads_dumps := by
    rintro (_ | _ | _) ⟨_ | _⟩ <;> decide
  loads_empty := by decide

end OkObject
