import DuraLLM.Lib.JsonValue
import DuraLLM.Streaming.Parser

/-! # What comes out of a stream

Where the network cuts the stream makes no difference to the events.  Which
lines they carry does depend on the stream: a data line is lost when it stands
behind a line that does not decode, or when the stream ends before the line does.
-/

namespace DuraLLM.SSEStreamParser

open Utf8 Text SSEFields LineReader

variable {Json : Type} [JsonCodec Json]

/-- What flushing the fields gives. -/
def closing (fields : SSEFields) : List (ParsedSSEEvent Json) :=
  if fields.dataLines = [] then [] else [fields.dispatch]

theorem parseFrom_feedAll (p : SSEStreamParser) (chunks : List Bytes) :
    p.parseFrom chunks =
      ((reader Json).feedAll p.toSSEFields p.buffer chunks).events ++
        closing ((reader Json).feedAll p.toSSEFields p.buffer chunks).state := by
  induction chunks generalizing p with
  | nil => rfl
  | cons chunk chunks ih => simp only [parseFrom, feed, ih, feedAll, List.append_assoc]

/-- The events are those of the lines that have ended. -/
theorem parse_takeAll (chunks : List Bytes) :
    parse chunks =
      ((reader Json).takeAll {} (finishedLines 10 chunks.flatten)).1 ++
        closing ((reader Json).takeAll {} (finishedLines 10 chunks.flatten)).2 := by
  have whole := (reader Json).feedAll_takeAll {} chunks
  simp only [Reading.outcome] at whole
  rw [parse, parseFrom_feedAll]
  exact congrArg (fun out : List (ParsedSSEEvent Json) × SSEFields => out.1 ++ closing out.2) whole

/-- The events do not depend on how the stream is cut into chunks. -/
theorem parse_chunks (chunks : List Bytes) :
    (parse chunks : List (ParsedSSEEvent Json)) = parse [chunks.flatten] := by
  rw [parse_takeAll, parse_takeAll, List.flatten_singleton]

/-! ## The data lines of a stream -/

/-- The stripped payload of a line that decodes and starts with `data:`. -/
def dataPayload (raw : Bytes) : Option String := do
  let text ← decode (chomp raw)
  (afterPrefix "data:" text).map strip

/-- What the events of a stream should carry. -/
def payloads (stream : Bytes) : List String :=
  (finishedLines 10 stream ++ [unfinishedLine 10 stream]).filterMap dataPayload

/-- The lines whose payloads the events carry. -/
def delivered (events : List (ParsedSSEEvent Json)) : List String :=
  events.flatMap fun event => splitLines event.data

def decodes (raw : Bytes) : Bool := (decode (chomp raw)).isSome

/-- No data line stands behind a line that does not decode, and the stream does not end
    within a data line. -/
def NoneStranded (stream : Bytes) : Prop :=
  (∀ raw ∈ (finishedLines 10 stream).dropWhile decodes, dataPayload raw = none) ∧
    dataPayload (unfinishedLine 10 stream) = none

instance (stream : Bytes) : Decidable (NoneStranded stream) := inferInstanceAs (Decidable (_ ∧ _))

/-! ## Payloads have no line ends -/

theorem mem_strip {text : String} {c : Char} (member : c ∈ (strip text).toList) :
    c ∈ text.toList := by
  rw [strip, String.toList_ofList] at member
  exact (List.dropWhile_sublist _).subset ((List.rdropWhile_prefix _ _).subset member)

theorem mem_afterPrefix {start text rest : String} (found : afterPrefix start text = some rest)
    {c : Char} (member : c ∈ rest.toList) : c ∈ text.toList := by
  obtain ⟨chars, cut, rfl⟩ := Option.map_eq_some_iff.mp found
  obtain ⟨front, same, -⟩ := List.dropPrefix?_eq_some_iff.mp cut
  rw [String.toList_ofList] at member
  rw [same]
  exact List.mem_append_right _ member

/-- A line has no line end in it, and neither has its payload. -/
theorem dataPayload_unbroken {raw : Bytes} (line : 10 ∉ raw) {payload : String}
    (found : dataPayload raw = some payload) : '\n' ∉ payload.toList := by
  intro broken
  obtain ⟨text, read, found⟩ := Option.bind_eq_some_iff.mp found
  obtain ⟨rest, cut, rfl⟩ := Option.map_eq_some_iff.mp found
  have inText := mem_afterPrefix cut (mem_strip broken)
  rw [decode_eq_some_iff] at read
  have inBytes : (10 : UInt8) ∈ encode text := (mem_encode (by decide) text).mpr ⟨_, inText, rfl⟩
  exact line (mem_chomp (read ▸ inBytes))

/-! ## Line by line -/

/-- Data lines start with nothing else the parser looks for. -/
theorem afterPrefix_data {text value : String} (data : afterPrefix "data:" text = some value) :
    afterPrefix ":" text = none ∧ afterPrefix "event:" text = none := by
  obtain ⟨chars, cut, -⟩ := Option.map_eq_some_iff.mp data
  obtain ⟨front, same, start⟩ := List.dropPrefix?_eq_some_iff.mp cut
  rw [beq_iff_eq] at start
  simp [afterPrefix, same, start, List.dropPrefix?]

theorem readText_data {fields : SSEFields} {text : String} :
    (fields.readText text).dataLines =
      fields.dataLines ++ ((afterPrefix "data:" text).map strip).toList := by
  cases data : afterPrefix "data:" text with
  | some value =>
      obtain ⟨comment, event⟩ := afterPrefix_data data
      simp [readText, comment, event, data]
  | none =>
      unfold readText
      split
      · simp
      · split <;> simp [data]

theorem readText_unbroken {fields : SSEFields} {raw : Bytes} {text : String} (line : 10 ∉ raw)
    (read : decode (chomp raw) = some text) (unbroken : Unbroken fields.dataLines) :
    Unbroken (fields.readText text).dataLines := by
  intro payload member
  rw [readText_data, List.mem_append, Option.mem_toList] at member
  cases member with
  | inl old => exact unbroken payload old
  | inr new => exact dataPayload_unbroken line (by simpa [dataPayload, read] using new)

omit [JsonCodec Json] in
theorem delivered_append (before after : List (ParsedSSEEvent Json)) :
    delivered (before ++ after) = delivered before ++ delivered after := List.flatMap_append

theorem delivered_dispatch {fields : SSEFields} (unbroken : Unbroken fields.dataLines)
    (some : fields.dataLines ≠ []) :
    delivered [(fields.dispatch : ParsedSSEEvent Json)] = fields.dataLines := by
  simpa [delivered, SSEFields.dispatch] using splitLines_joinLines unbroken some

theorem delivered_closing {fields : SSEFields} (unbroken : Unbroken fields.dataLines) :
    delivered (closing fields : List (ParsedSSEEvent Json)) = fields.dataLines := by
  unfold closing
  split
  · next none => rw [none]; rfl
  · next some => exact delivered_dispatch unbroken some

variable (Json) in
/-- A line that decodes puts its payload behind the others. -/
theorem readLine_delivers {fields : SSEFields} {raw : Bytes} (line : 10 ∉ raw)
    (readable : decodes raw) (unbroken : Unbroken fields.dataLines) :
    ∃ (events : List (ParsedSSEEvent Json)) (fields' : SSEFields),
      fields.readLine raw = .ok (events, fields') ∧
        delivered events ++ fields'.dataLines = fields.dataLines ++ (dataPayload raw).toList ∧
        Unbroken fields'.dataLines := by
  obtain ⟨text, read⟩ := Option.isSome_iff_exists.mp readable
  by_cases blank : chomp raw = []
  · have payload : dataPayload raw = none := by
      rw [dataPayload, blank]
      rfl
    by_cases none : fields.dataLines = []
    · exact ⟨[], fields, by simp [readLine, blank, none], by simp [delivered, payload], unbroken⟩
    · exact ⟨[fields.dispatch], {}, by simp [readLine, blank, none],
        by simp [delivered_dispatch unbroken none, payload], by simp [Unbroken]⟩
  · exact ⟨[], fields.readText text, by simp [readLine, blank, read],
      by simp [delivered, readText_data, dataPayload, read], readText_unbroken line read unbroken⟩

variable (Json) in
/-- Until a line does not decode, the payloads come out in order. -/
theorem takeAll_delivers (fields : SSEFields) {lines : List Bytes}
    (clean : ∀ raw ∈ lines, 10 ∉ raw) (unbroken : Unbroken fields.dataLines) :
    delivered ((reader Json).takeAll fields lines).1 ++
          ((reader Json).takeAll fields lines).2.dataLines =
        fields.dataLines ++ (lines.takeWhile decodes).filterMap dataPayload ∧
      Unbroken ((reader Json).takeAll fields lines).2.dataLines := by
  induction lines generalizing fields with
  | nil => simp [takeAll, delivered, unbroken]
  | cons raw lines ih =>
      cases readable : decodes raw with
      | false =>
          have undecodable : decode (chomp raw) = none := by
            simpa [decodes] using readable
          have refused : (reader Json).take fields raw = .error (chomp raw) :=
            readLine_undecodable fields undecodable
          simp [takeAll, refused, delivered, unbroken, readable]
      | true =>
          obtain ⟨events, fields', took, delivers, unbroken'⟩ :=
            readLine_delivers Json (clean raw List.mem_cons_self) readable unbroken
          have taken : (reader Json).take fields raw = .ok (events, fields') := took
          obtain ⟨later, unbroken''⟩ :=
            ih fields' (fun raw member => clean raw (List.mem_cons_of_mem _ member)) unbroken'
          simp only [takeAll, taken]
          refine ⟨?_, unbroken''⟩
          rw [delivered_append, List.append_assoc, later, ← List.append_assoc, delivers,
            List.takeWhile_cons_of_pos readable, List.filterMap_cons]
          cases dataPayload raw <;> simp

/-- The events carry the payloads up to the first line that does not decode. -/
theorem delivered_parse (chunks : List Bytes) :
    delivered (parse chunks : List (ParsedSSEEvent Json)) =
      ((finishedLines 10 chunks.flatten).takeWhile decodes).filterMap dataPayload := by
  have clean : ∀ raw ∈ finishedLines 10 chunks.flatten, 10 ∉ raw := by
    intro raw member broken
    rw [finishedLines, List.splitOn_eq_splitOnP] at member
    have other := Text.mem_segment (· == 10) _ raw (List.dropLast_subset _ member) 10 broken
    cases other
  obtain ⟨whole, unbroken⟩ := takeAll_delivers Json {} clean (by simp [Unbroken])
  rw [parse_takeAll, delivered_append, delivered_closing unbroken, whole]
  rfl

/-- Every data line of a stream comes out once and in order, if and only if none is stranded. -/
theorem delivered_parse_iff (chunks : List Bytes) :
    delivered (parse chunks : List (ParsedSSEEvent Json)) = payloads chunks.flatten ↔
      NoneStranded chunks.flatten := by
  have parts := List.takeWhile_append_dropWhile (p := decodes) (l := finishedLines 10 chunks.flatten)
  have whole : payloads chunks.flatten =
      ((finishedLines 10 chunks.flatten).takeWhile decodes).filterMap dataPayload ++
        (((finishedLines 10 chunks.flatten).dropWhile decodes).filterMap dataPayload ++
          (dataPayload (unfinishedLine 10 chunks.flatten)).toList) := by
    rw [← List.append_assoc, ← List.filterMap_append, parts, payloads, List.filterMap_append]
    cases found : dataPayload (unfinishedLine 10 chunks.flatten) <;> simp [found]
  rw [delivered_parse, whole, List.self_eq_append_right, List.append_eq_nil_iff,
    List.filterMap_eq_nil_iff, Option.toList_eq_nil_iff]
  rfl

/-- A comment that is not UTF-8 holds up the data line behind it, and a data line without
    an end is dropped. -/
theorem data_lines_stranded :
    (delivered (parse [[58, 255, 10, 10] ++ encode "data: x\n\n"] : List (ParsedSSEEvent JsonValue)) ≠
      payloads ([58, 255, 10, 10] ++ encode "data: x\n\n")) ∧
    delivered (parse [encode "data: x"] : List (ParsedSSEEvent JsonValue)) ≠
      payloads (encode "data: x") := by
  simp only [delivered_parse, List.flatten_singleton]
  decide +kernel

end DuraLLM.SSEStreamParser
