import DuraLLM.Providers.AnthropicEvents

/-! # Reading a stream of events

An event arrives on one line, or nothing of it does.  So reading a stream is
taking in its whole events one after the other.
-/

namespace DuraLLM

open Text JsonRaw

/-! ## Whole events -/

namespace ReplyEvent

theorem untorn_replyMembers {id model : String} (wholeId : JsonString.Untorn id)
    (wholeModel : JsonString.Untorn model) (inputTokens outputTokens : Nat) :
    UntornMembers (replyMembers id model [] null inputTokens outputTokens) := by
  have keys : (∀ key ∈ ["id", "type", "role", "model", "content", "stop_reason", "stop_sequence",
      "usage", "input_tokens", "output_tokens", "message", "assistant"],
      JsonString.Untorn key) := by decide
  simp only [List.forall_mem_cons, List.not_mem_nil, false_implies, implies_true] at keys
  simp [replyMembers, UntornMembers, Untorn, UntornItems, keys, wholeId, wholeModel]

theorem untorn_opening {opening : BlockOpening}
    (texts : ∀ id name, opening = .toolUse id name →
      JsonString.Untorn id ∧ JsonString.Untorn name) :
    UntornMembers opening.members := by
  have keys : (∀ key ∈ ["type", "thinking", "signature", "text", "tool_use", "id", "name",
      "input", ""], JsonString.Untorn key) := by decide
  simp only [List.forall_mem_cons, List.not_mem_nil, false_implies, implies_true] at keys
  cases opening with
  | thinking signed => cases signed <;> simp [BlockOpening.members, UntornMembers, Untorn, keys]
  | text => simp [BlockOpening.members, UntornMembers, Untorn, keys]
  | toolUse id name =>
      simp [BlockOpening.members, UntornMembers, Untorn, keys, texts id name rfl]

theorem untorn_members {e : ReplyEvent} (whole : e.Whole) : UntornMembers e.members := by
  have named : JsonString.Untorn e.name := by cases e <;> simp only [name] <;> decide
  have type : JsonString.Untorn "type" ∧ JsonString.Untorn "index" := by decide
  refine ⟨type.1, named, ?_⟩
  cases e with
  | messageStart id model inputTokens outputTokens =>
      exact ⟨by decide, untorn_replyMembers (whole id (by simp [texts]))
        (whole model (by simp [texts])) inputTokens outputTokens, trivial⟩
  | blockStart index opening =>
      refine ⟨type.2, trivial, by decide, untorn_opening ?_, trivial⟩
      rintro id name rfl
      exact ⟨whole id (by simp [texts]), whole name (by simp [texts])⟩
  | blockDelta index delta =>
      obtain ⟨kind, part⟩ := delta
      have words : JsonString.Untorn kind.type ∧ JsonString.Untorn kind.key := by
        cases kind <;> decide
      have text : JsonString.Untorn part := whole part (by simp [texts])
      exact ⟨type.2, trivial, by decide, ⟨type.1, words.1, words.2, text, trivial⟩, trivial⟩
  | blockStop index => exact ⟨type.2, trivial, trivial⟩
  | messageDelta stopReason outputTokens =>
      have reason : JsonString.Untorn stopReason := whole stopReason (by simp [texts])
      have keys : JsonString.Untorn "stop_reason" ∧ JsonString.Untorn "stop_sequence" := by decide
      exact ⟨by decide, ⟨keys.1, reason, keys.2, trivial, trivial⟩, by decide,
        ⟨by decide, trivial, trivial⟩, trivial⟩
  | messageStop => trivial
  | ping => trivial

/-! ## Torn events -/

/-- None of the data of the event arrives. -/
def Lost (e : ReplyEvent) : Prop :=
  ∀ rest, ∃ pieces,
    lines ((dataFrame (payloadText (.obj e.members))).toList ++ rest) = pieces ++ lines rest ∧
      ∀ piece ∈ pieces, Hollow (String.ofList piece)

theorem letter_int (n : Int) : 'd' ∉ JsonScalar.text (.int n) := by
  intro member
  cases JsonScalar.int_chars n member with
  | inl digit => simp at digit
  | inr minus => simp at minus

theorem noKey_comma {c : Char} (visible : blank c = false) (other : c ≠ ':') (rest : List Char) :
    NoKey (',' :: ' ' :: '\x22' :: c :: rest) :=
  noKey_more (show JsonString.read [',', ' ', '\x22'] = some (", ", []) by decide) visible other

/-- A text among the members brings no member. -/
theorem mute_member {key s : String} {after : List (String × JsonRaw)} {tail : List Char}
    (flat : '\x7b' ∉ JsonString.write false key)
    (mute : Mute (writeMembers .verbatim after ++ tail))
    (noKey : NoKey (writeMembers .verbatim after ++ tail)) :
    Mute (writeMembers .verbatim ((key, .str s) :: after) ++ tail) := by
  have chars : writeMembers .verbatim ((key, .str s) :: after) ++ tail =
      (", ".toList ++ (JsonString.write false key ++ ": ".toList)) ++
        '\x22' :: (s.toList.flatMap (JsonString.escape false) ++
          '\x22' :: (writeMembers .verbatim after ++ tail)) := by
    simp [writeMembers, write, JsonString.write, JsonStyle.comma, JsonStyle.colon, JsonStyle.ascii]
  rw [chars]
  exact (mute.escape noKey false s.toList).behind (by simp [flat])

theorem delta_lost {index : Nat} {delta : ReplyDelta} (torn : ¬JsonString.Untorn delta.part) :
    (blockDelta index delta).Lost := by
  obtain ⟨kind, part⟩ := delta
  have hole : Hole (fun s => .obj (blockDelta index ⟨kind, s⟩).members) id _ :=
    ((hole_str id).member [("type", .str kind.type)] kind.key fun _ => []).member
      [("type", .str "content_block_delta"), ("index", int index)] "delta" fun _ => []
  have untorn : UntornMembers (blockDelta index ⟨kind, ""⟩).members :=
    untorn_members (by simp [Whole, texts]; decide)
  exact lines_torn_hole hole ⟨"", rfl, untorn⟩ (mute_of_letter (by decide)) (by decide +kernel) torn

theorem messageDelta_lost {stopReason : String} {outputTokens : Nat}
    (torn : ¬JsonString.Untorn stopReason) : (messageDelta stopReason outputTokens).Lost := by
  have hole : Hole (fun s => .obj (messageDelta s outputTokens).members) id _ :=
    ((hole_str id).member [] "stop_reason" fun _ => [("stop_sequence", null)]).member
      [("type", .str "message_delta")] "delta"
      fun _ => [("usage", .obj [("output_tokens", int outputTokens)])]
  have untorn : UntornMembers (messageDelta "" outputTokens).members :=
    untorn_members (by simp [Whole, texts]; decide)
  refine lines_torn_hole hole ⟨"", rfl, untorn⟩ (mute_of_letter ?_) ?_ torn
  · simp [writeMembers, write, letter_int]
    decide
  · exact noKey_comma (by decide) (by decide) _

theorem toolStart_lost {index : Nat} {id name : String}
    (torn : ¬(JsonString.Untorn id ∧ JsonString.Untorn name)) :
    (blockStart index (.toolUse id name)).Lost := by
  by_cases wholeId : JsonString.Untorn id
  · have hole : Hole (fun s => .obj (blockStart index (.toolUse id s)).members) (fun s => s) _ :=
      ((hole_str fun s => s).member [("type", .str "tool_use"), ("id", .str id)] "name"
        fun _ => [("input", .obj [])]).member
        [("type", .str "content_block_start"), ("index", int index)] "content_block" fun _ => []
    have untorn : UntornMembers (blockStart index (.toolUse id "")).members :=
      untorn_members (by simp [Whole, texts, wholeId]; decide)
    exact lines_torn_hole hole ⟨"", rfl, untorn⟩ (mute_of_letter (by decide)) (by decide +kernel)
      fun wholeName => torn ⟨wholeId, wholeName⟩
  · have hole : Hole (fun a => .obj (blockStart index (.toolUse a.1 a.2)).members) Prod.fst _ :=
      ((hole_str Prod.fst).member [("type", .str "tool_use")] "id"
        fun a : String × String => [("name", .str a.2), ("input", .obj [])]).member
        [("type", .str "content_block_start"), ("index", int index)] "content_block" fun _ => []
    have untorn : UntornMembers (blockStart index (.toolUse "" "")).members :=
      untorn_members (by simp [Whole, texts]; decide)
    refine @lines_torn_hole _ _ _ _ hole (id, name) ⟨("", ""), rfl, untorn⟩ ?_ ?_ wholeId
    · exact mute_member (by decide) (mute_of_letter (by decide))
        (noKey_comma (by decide) (by decide) _)
    · exact noKey_comma (by decide) (by decide) _

theorem messageStart_lost {id model : String} {inputTokens outputTokens : Nat}
    (torn : ¬(JsonString.Untorn id ∧ JsonString.Untorn model)) :
    (messageStart id model inputTokens outputTokens).Lost := by
  let ends : List (String × JsonRaw) :=
    [("content", .arr []), ("stop_reason", null), ("stop_sequence", null),
      ("usage", .obj [("input_tokens", int inputTokens), ("output_tokens", int outputTokens)])]
  have silent : Mute (writeMembers .verbatim ends ++ ['\x7d']) := by
    apply mute_of_letter
    simp [ends, writeMembers, write, letter_int]
    decide
  have noKey : NoKey (writeMembers .verbatim ends ++ ['\x7d']) :=
    noKey_comma (by decide) (by decide) _
  by_cases wholeId : JsonString.Untorn id
  · have hole : Hole (fun s => .obj (messageStart id s inputTokens outputTokens).members)
        (fun s => s) _ :=
      ((hole_str fun s => s).member
        [("id", .str id), ("type", .str "message"), ("role", .str "assistant")] "model"
        fun _ => ends).member [("type", .str "message_start")] "message" fun _ => []
    have untorn : UntornMembers (messageStart id "" inputTokens outputTokens).members :=
      untorn_members (by simp [Whole, texts, wholeId]; decide)
    exact lines_torn_hole hole ⟨"", rfl, untorn⟩ silent noKey fun wholeModel => torn ⟨wholeId, wholeModel⟩
  · have hole : Hole (fun a => .obj (messageStart a.1 a.2 inputTokens outputTokens).members)
        Prod.fst _ :=
      ((hole_str Prod.fst).member [] "id" fun a : String × String =>
        ("type", .str "message") :: ("role", .str "assistant") :: ("model", .str a.2) ::
          ends).member [("type", .str "message_start")] "message" fun _ => []
    have untorn : UntornMembers (messageStart "" "" inputTokens outputTokens).members :=
      untorn_members (by simp [Whole, texts]; decide)
    have role : Mute (writeMembers .verbatim (("model", .str model) :: ends) ++ ['\x7d']) :=
      mute_member (by decide) silent noKey
    refine @lines_torn_hole _ _ _ _ hole (id, model) ⟨("", ""), rfl, untorn⟩ ?_ ?_ wholeId
    · apply mute_member (by decide)
      · exact mute_member (by decide) role (noKey_comma (by decide) (by decide) _)
      · exact noKey_comma (by decide) (by decide) _
    · exact noKey_comma (by decide) (by decide) _

theorem lost_of_torn {e : ReplyEvent} (torn : ¬e.Whole) : e.Lost := by
  cases e with
  | messageStart id model inputTokens outputTokens =>
      exact messageStart_lost (by simpa [Whole, texts] using torn)
  | blockStart index opening =>
      cases opening with
      | toolUse id name => exact toolStart_lost (by simpa [Whole, texts] using torn)
      | _ => exact absurd (by simp [Whole, texts]) torn
  | blockDelta index delta => exact delta_lost (by simpa [Whole, texts] using torn)
  | messageDelta stopReason outputTokens =>
      exact messageDelta_lost (by simpa [Whole, texts] using torn)
  | _ => exact absurd (by simp [Whole, texts]) torn

theorem eventLine_hollow (e : ReplyEvent) : Hollow ("event: " ++ e.name) := by
  have data : lineData ("event: " ++ e.name) = none := by
    cases e <;> simp only [name] <;> decide +kernel
  apply hollow_of_none
  rw [lineObject, data]
  rfl

theorem frame_lines (e : ReplyEvent) (rest : List Char) :
    lines (e.frame.toList ++ rest) = ("event: " ++ e.name).toList ::
      lines ((dataFrame (payloadText (.obj e.members))).toList ++ rest) := by
  have one : OneLine ("event: " ++ e.name).toList := by
    have named : ("event: " ++ e.name).toList.all (fun c => !isLineBreak c) = true := by
      cases e <;> simp only [name] <;> decide +kernel
    simpa [OneLine] using named
  have chars : e.frame.toList ++ rest = ("event: " ++ e.name).toList ++
      '\n' :: ((dataFrame (payloadText (.obj e.members))).toList ++ rest) := by
    simp [frame, eventFrame, dataFrame]
  rw [chars, lines_append one rfl (by decide)]

end ReplyEvent

/-! ## Reading lines -/

namespace AnthropicAdapter.EventState

variable (draw : Nat → String)

/-- What an event that arrives does. -/
def addEvent (s : EventState) (e : ReplyEvent) : Option EventState :=
  s.addData draw (.obj (sortedMembers e.members))

/-- The lines of a text, one after the other. -/
def addText (s : EventState) (chars : List Char) : Option EventState :=
  ((lines chars).map String.ofList).foldlM (addLine draw) s

theorem addLine_hollow (s : EventState) {rawLine : String} (hollow : Hollow rawLine) :
    s.addLine draw rawLine = some s := by
  unfold addLine
  cases found : lineObject rawLine with
  | none => rfl
  | some members =>
      rw [hollow members found]
      rfl

theorem addPieces (s : EventState) {pieces : List (List Char)}
    (hollow : ∀ piece ∈ pieces, Hollow (String.ofList piece)) :
    (pieces.map String.ofList).foldlM (addLine draw) s = some s := by
  induction pieces with
  | nil => rfl
  | cons piece pieces ih =>
      rw [List.map_cons, List.foldlM_cons, addLine_hollow draw s (hollow piece List.mem_cons_self)]
      exact ih fun other member => hollow other (List.mem_cons_of_mem piece member)

theorem addText_pieces (s : EventState) {chars rest : List Char} {pieces : List (List Char)}
    (split : lines chars = pieces ++ lines rest)
    (hollow : ∀ piece ∈ pieces, Hollow (String.ofList piece)) :
    s.addText draw chars = s.addText draw rest := by
  rw [addText, split, List.map_append, List.foldlM_append, addPieces draw s hollow]
  rfl

/-- A whole event is taken in; of a torn one nothing is. -/
theorem addText_frame (s : EventState) (e : ReplyEvent) (rest : List Char) :
    s.addText draw (e.frame.toList ++ rest) =
      (if e.Whole then s.addEvent draw e else some s).bind (·.addText draw rest) := by
  have first := e.frame_lines rest
  have skipped := e.eventLine_hollow
  split
  · next whole =>
    have one : OneLine ((obj e.members).write .verbatim) :=
      write_oneLine _ (.inr (ReplyEvent.untorn_members whole))
    have read := lineObject_write .verbatim e.members
    have added :
        s.addLine draw (String.ofList ("data: ".toList ++ (obj e.members).write .verbatim)) =
          s.addEvent draw e := by
      rw [addLine, read]
      rfl
    rw [payloadText, lines_frame one] at first
    rw [addText, first, List.map_cons, List.map_cons, List.map_cons, String.ofList_toList,
      List.foldlM_cons, addLine_hollow draw s skipped, Option.bind_eq_bind, Option.bind_some,
      List.foldlM_cons, added]
    apply Option.bind_congr
    intro s' _
    rw [List.foldlM_cons, addLine_hollow draw s' hollow_blank]
    rfl
  · next torn =>
    obtain ⟨pieces, split, hollow⟩ := ReplyEvent.lost_of_torn torn rest
    rw [split, ← List.cons_append] at first
    apply addText_pieces draw s first
    intro piece member
    cases List.mem_cons.mp member with
    | inl same => rw [same, String.ofList_toList]; exact skipped
    | inr later => exact hollow piece later

theorem addText_events (s : EventState) (events : List ReplyEvent) (rest : List Char) :
    s.addText draw ((eventText events).toList ++ rest) =
      ((events.filter fun e => e.Whole).foldlM (addEvent draw) s).bind (·.addText draw rest) := by
  induction events generalizing s with
  | nil => rfl
  | cons e events ih =>
      have chars : (eventText (e :: events)).toList ++ rest =
          e.frame.toList ++ ((eventText events).toList ++ rest) := by
        simp [eventText, String.join_cons]
      rw [chars, addText_frame]
      by_cases whole : e.Whole
      · rw [if_pos whole, List.filter_cons_of_pos (by simpa using whole), List.foldlM_cons,
          Option.bind_eq_bind, Option.bind_assoc]
        exact Option.bind_congr fun s' _ => ih s'
      · rw [if_neg whole, List.filter_cons_of_neg (by simpa using whole), Option.bind_some]
        exact ih s

end AnthropicAdapter.EventState

end DuraLLM
