import DuraLLM.Lib.Json
import DuraLLM.Lib.LineReader
import DuraLLM.Lib.Text
import DuraLLM.Lib.Utf8
import DuraLLM.Protocol.Ir
import Mathlib.Data.List.DropRight

/-! # Parsing server-sent events

The bytes of a provider arrive in chunks; a complete line is taken as soon as
it is there, and a blank line ends an event.  A line that is not UTF-8 is put
back in front of the buffer, and the parser waits.  `Json` is what a decoded
payload is.
-/

namespace DuraLLM

open Utf8 Text

/-- `text.strip()` -/
def strip (text : String) : String :=
  String.ofList ((text.toList.dropWhile isSpace).rdropWhile isSpace)

/-- What follows `start` in a text that starts with it. -/
def afterPrefix (start text : String) : Option String :=
  (text.toList.dropPrefix? start.toList).map String.ofList

structure ParsedSSEEvent (Json : Type) where
  event : String := "message"
  data : String := ""
  jsonData : Option Json := none
  isDone : Bool := false
  deriving DecidableEq

/-- The fields of the event under way. -/
structure SSEFields where
  eventType : String := "message"
  dataLines : List String := []

structure SSEStreamParser extends SSEFields where
  buffer : Bytes := []

variable {Json : Type} [JsonCodec Json]

namespace SSEFields

/-- The event that the fields make up. -/
def dispatch (fields : SSEFields) : ParsedSSEEvent Json :=
  let dataStr := joinLines fields.dataLines
  let isDone := strip dataStr == "[DONE]"
  { event := fields.eventType
    data := dataStr
    jsonData := if !isDone && dataStr ≠ "" then JsonCodec.loads dataStr else none
    isDone }

/-- `\r` is cut off the end of a line. -/
def chomp (raw : Bytes) : Bytes := if raw.getLast? = some 13 then raw.dropLast else raw

/-- A line of text sets the type, adds a data line, or is of no account. -/
def readText (fields : SSEFields) (lineStr : String) : SSEFields :=
  if (afterPrefix ":" lineStr).isSome then fields
  else match afterPrefix "event:" lineStr with
  | some value => { fields with eventType := strip value }
  | none =>
      match afterPrefix "data:" lineStr with
      | some value => { fields with dataLines := fields.dataLines ++ [strip value] }
      | none => fields

/-- One turn of the loop, for the line in front of the line end; an error puts it back. -/
def readLine (fields : SSEFields) (raw : Bytes) :
    Except Bytes (List (ParsedSSEEvent Json) × SSEFields) :=
  let lineBytes := chomp raw
  if lineBytes = [] then
    -- a blank line ends the event
    if fields.dataLines = [] then .ok ([], fields) else .ok ([fields.dispatch], {})
  else
    match decode lineBytes with
    | none => .error lineBytes
    | some lineStr => .ok ([], fields.readText lineStr)

/-! ## A line that was put back -/

theorem mem_chomp {raw : Bytes} {byte : UInt8} (member : byte ∈ chomp raw) : byte ∈ raw := by
  unfold chomp at member
  split at member
  · exact List.dropLast_subset _ member
  · exact member

/-- What decodes without a carriage return decodes with it. -/
theorem decode_of_chomp {raw : Bytes} {text : String} (decodes : decode (chomp raw) = some text) :
    ∃ whole, decode raw = some whole := by
  unfold chomp at decodes
  split at decodes
  · next ends =>
    have cr : decode [13] = some "\r" := (decode_eq_some_iff _ _).mpr rfl
    obtain ⟨init, rfl⟩ := List.getLast?_eq_some_iff.mp ends
    rw [List.dropLast_concat] at decodes
    exact ⟨_, decode_append decodes cr⟩
  · exact ⟨text, decodes⟩

theorem readLine_undecodable (fields : SSEFields) {raw : Bytes}
    (undecodable : decode (chomp raw) = none) :
    (fields.readLine raw : Except Bytes (List (ParsedSSEEvent Json) × SSEFields)) =
      .error (chomp raw) := by
  have nonempty : chomp raw ≠ [] := by
    intro empty
    rw [empty] at undecodable
    cases undecodable
  simp only [readLine, if_neg nonempty, undecodable]

theorem readLine_error {fields : SSEFields} {raw back : Bytes}
    (refused : (fields.readLine raw : Except Bytes (List (ParsedSSEEvent Json) × SSEFields)) =
      .error back) :
    back = chomp raw ∧ decode (chomp raw) = none := by
  cases decodes : decode (chomp raw) with
  | none =>
      have same := refused.symm.trans (readLine_undecodable fields decodes)
      exact ⟨Except.error.inj same, rfl⟩
  | some text =>
      simp only [readLine, decodes] at refused
      split at refused
      · split at refused <;> cases refused
      · cases refused

end SSEFields

open SSEFields

/-- The loop of `feed`. -/
def reader (Json : Type) [JsonCodec Json] :
    LineReader UInt8 SSEFields (ParsedSSEEvent Json) where
  newline := 10
  take := readLine
  putBack := by
    intro fields line back refused clean
    obtain ⟨rfl, undecodable⟩ := readLine_error refused
    refine ⟨fun member => clean (mem_chomp member), chomp (chomp line), ?_⟩
    apply readLine_undecodable
    cases decodes : decode (chomp (chomp line)) with
    | none => rfl
    | some text =>
        obtain ⟨whole, decodes⟩ := decode_of_chomp decodes
        simp [undecodable] at decodes

namespace SSEStreamParser

/-- Complete lines are taken from the buffer as long as there are any. -/
def feed (p : SSEStreamParser) (chunk : Bytes) : List (ParsedSSEEvent Json) × SSEStreamParser :=
  let reading := (reader Json).drain p.toSSEFields (p.buffer ++ chunk)
  (reading.events, { toSSEFields := reading.state, buffer := reading.buffer })

/-- What the data lines make up comes out; the buffer is emptied. -/
def flush (p : SSEStreamParser) : List (ParsedSSEEvent Json) × SSEStreamParser :=
  (if p.dataLines = [] then [] else [p.dispatch], { p with dataLines := [], buffer := [] })

/-- Feed the chunks one by one, then flush. -/
def parseFrom (p : SSEStreamParser) : List Bytes → List (ParsedSSEEvent Json)
  | [] => p.flush.1
  | chunk :: chunks =>
      let (events, p) := p.feed chunk
      events ++ p.parseFrom chunks

def parse (chunks : List Bytes) : List (ParsedSSEEvent Json) := parseFrom {} chunks

end SSEStreamParser

end DuraLLM
