import Mathlib.Data.List.Induction
import DuraLLM.Lib.Separators
import DuraLLM.Lib.JsonAccess
import DuraLLM.Lib.Utf8
import DuraLLM.Protocol.Gemini
import DuraLLM.Routing.Selection

/-! # Warm prompt caches

A provider keeps the beginning of a prompt for a while.  The hash stands for
that beginning, and the tracker for the endpoints that still hold it.
-/

namespace DuraLLM

abbrev ToolDefinition := NormalizedToolDefinition JsonValue

/-! ## The hash of a beginning -/

/-- Python orders texts by their code points. -/
def sortedTools (tools : List ToolDefinition) : List ToolDefinition :=
  tools.mergeSort fun t u => decide (t.name ≤ u.name)

def toolBytes (t : ToolDefinition) : Utf8.Bytes :=
  Utf8.encode t.name ++ [1] ++ Utf8.encode t.description ++ [1] ++
    Utf8.encode (JsonCodec.dumps .spaced t.parameters) ++ [0]

def toolsBytes (tools : List ToolDefinition) : Utf8.Bytes :=
  if tools.isEmpty then Utf8.encode "no_tools" ++ [0] else (sortedTools tools).flatMap toolBytes

def rootBytes (messages : List (NormalizedMessage JsonValue)) : Utf8.Bytes :=
  match messages with
  | [] => []
  | firstMsg :: _ => Utf8.encode firstMsg.role ++ [1] ++ Utf8.encode firstMsg.content ++ [0]

/-- What the hasher is given, one piece after another. -/
def hashedBytes (req : NormalizedRequest JsonValue) : Utf8.Bytes :=
  Utf8.encode (orText (effectiveSystemInstruction req) "") ++ [0] ++ toolsBytes req.tools ++
    rootBytes req.messages

def computePrefixHash (sha256 : Utf8.Bytes → String) (req : NormalizedRequest JsonValue) : String :=
  sha256 (hashedBytes req)

/-! ### As a table -/

/-- What the hash sees of a tool. -/
structure HashedTool where
  name : String
  description : String
  parameters : JsonValue

def NormalizedToolDefinition.hashed (t : ToolDefinition) : HashedTool :=
  ⟨t.name, t.description, t.parameters⟩

namespace HashedTool

def row (t : HashedTool) : List Utf8.Bytes :=
  [Utf8.encode t.name, Utf8.encode t.description,
    Utf8.encode (JsonCodec.dumps .spaced t.parameters)]

theorem row_injective : Function.Injective row := by
  intro t u same
  simp only [row, List.cons.injEq, and_true] at same
  obtain ⟨names, descriptions, parameters⟩ := same
  have texts := Utf8.encode_injective parameters
  cases t
  cases u
  simp only [HashedTool.mk.injEq]
  exact ⟨Utf8.encode_injective names, Utf8.encode_injective descriptions,
    JsonCodec.dumps_injective .spaced texts⟩

end HashedTool

/-- The beginning of a prompt: its instruction, its tools in any order, and its
    first message. -/
structure PromptPrefix where
  instruction : String
  tools : List HashedTool
  root : Option (String × String)

def promptPrefix (req : NormalizedRequest JsonValue) : PromptPrefix where
  instruction := orText (effectiveSystemInstruction req) ""
  tools := (sortedTools req.tools).map NormalizedToolDefinition.hashed
  root := req.messages.head?.map fun m => (m.role, m.content)

namespace PromptPrefix

def toolRows (p : PromptPrefix) : List (List Utf8.Bytes) :=
  if p.tools.isEmpty then [[Utf8.encode "no_tools"]] else p.tools.map HashedTool.row

def rootRows (p : PromptPrefix) : List (List Utf8.Bytes) :=
  p.root.toList.map fun m => [Utf8.encode m.1, Utf8.encode m.2]

def rows (p : PromptPrefix) : List (List Utf8.Bytes) :=
  [Utf8.encode p.instruction] :: (p.toolRows ++ p.rootRows)

end PromptPrefix

theorem toolBytes_eq (t : ToolDefinition) :
    toolBytes t = Separators.writeRow 1 0 t.hashed.row := by
  simp [toolBytes, Separators.writeRow, HashedTool.row, NormalizedToolDefinition.hashed,
    List.intercalate_cons_cons]

theorem hashedBytes_eq (req : NormalizedRequest JsonValue) :
    hashedBytes req = Separators.writeRows 1 0 (promptPrefix req).rows := by
  have tools : toolsBytes req.tools = Separators.writeRows 1 0 (promptPrefix req).toolRows := by
    have empty : (promptPrefix req).tools.isEmpty = req.tools.isEmpty := by
      rw [Bool.eq_iff_iff, List.isEmpty_iff_length_eq_zero, List.isEmpty_iff_length_eq_zero,
        promptPrefix, List.length_map, sortedTools, List.length_mergeSort]
    rw [toolsBytes, PromptPrefix.toolRows, empty]
    split_ifs with none
    · simp [Separators.writeRows, Separators.writeRow]
    · rw [show toolBytes = _ from funext toolBytes_eq]
      simp only [promptPrefix, Separators.writeRows, List.flatMap_map]
  have root : rootBytes req.messages = Separators.writeRows 1 0 (promptPrefix req).rootRows := by
    cases messages : req.messages <;>
      simp [rootBytes, PromptPrefix.rootRows, promptPrefix, messages, Separators.writeRows,
        Separators.writeRow, List.intercalate_cons_cons]
  rw [hashedBytes, tools, root]
  simp [PromptPrefix.rows, promptPrefix, Separators.writeRows, Separators.writeRow]

/-! ### Plain texts -/

/-- Without the two bytes that the hash puts between texts. -/
def PlainText (text : String) : Prop := '\x00' ∉ text.toList ∧ '\x01' ∉ text.toList

structure PromptPrefix.Plain (p : PromptPrefix) : Prop where
  instruction : PlainText p.instruction
  tools : ∀ t ∈ p.tools, PlainText t.name ∧ PlainText t.description
  root : ∀ m ∈ p.root, PlainText m.1 ∧ PlainText m.2

theorem PlainText.bytes {text : String} (plain : PlainText text) :
    1 ∉ Utf8.encode text ∧ 0 ∉ Utf8.encode text := by
  constructor
  · rw [Utf8.mem_encode (by decide)]
    rintro ⟨c, inside, code⟩
    exact plain.2 ((Char.toNat_inj (d := '\x01')).mp code ▸ inside)
  · rw [Utf8.mem_encode (by decide)]
    rintro ⟨c, inside, code⟩
    exact plain.1 ((Char.toNat_inj (d := '\x00')).mp code ▸ inside)

theorem PlainText.of_visible {text : String} (visible : ∀ c ∈ text.toList, 32 ≤ c.toNat) :
    PlainText text :=
  ⟨fun held => absurd (visible _ held) (by decide), fun held => absurd (visible _ held) (by decide)⟩

theorem HashedTool.plain_parameters (t : HashedTool) :
    PlainText (JsonCodec.dumps .spaced t.parameters) :=
  .of_visible fun c inside =>
    JsonRaw.write_visible .spaced t.parameters.raw c
      (by simpa [JsonCodec.dumps, JsonValue.dumps] using inside)

namespace PromptPrefix

variable {p q : PromptPrefix}

theorem mem_toolRows {row : List Utf8.Bytes} (inTools : row ∈ p.toolRows) :
    row = [Utf8.encode "no_tools"] ∨ ∃ t ∈ p.tools, row = t.row := by
  rw [toolRows] at inTools
  split_ifs at inTools with none
  · exact .inl (List.mem_singleton.mp inTools)
  · obtain ⟨t, place, rfl⟩ := List.mem_map.mp inTools
    exact .inr ⟨t, place, rfl⟩

theorem Plain.clean (plain : p.Plain) : Separators.Clean 1 0 p.rows := by
  intro row place
  rw [rows, List.mem_cons, List.mem_append] at place
  rcases place with rfl | inTools | inRoot
  · exact ⟨by simp, by simpa using plain.instruction.bytes⟩
  · rcases mem_toolRows inTools with rfl | ⟨t, place, rfl⟩
    · exact ⟨by simp, by decide⟩
    · have texts := plain.tools t place
      refine ⟨by simp [HashedTool.row], ?_⟩
      simpa [HashedTool.row] using
        ⟨texts.1.bytes, texts.2.bytes, t.plain_parameters.bytes⟩
  · obtain ⟨m, found, rfl⟩ := List.mem_map.mp inRoot
    have texts := plain.root m (Option.mem_toList.mp found)
    exact ⟨by simp, by simpa using ⟨texts.1.bytes, texts.2.bytes⟩⟩

/-- Only the row of the first message has two fields. -/
theorem toolRows_length {row : List Utf8.Bytes} (inTools : row ∈ p.toolRows) : row.length ≠ 2 := by
  rcases mem_toolRows inTools with rfl | ⟨t, -, rfl⟩ <;> simp [HashedTool.row]

theorem filter_rows (p : PromptPrefix) :
    (p.toolRows ++ p.rootRows).filter (·.length == 2) = p.rootRows ∧
      (p.toolRows ++ p.rootRows).filter (·.length != 2) = p.toolRows := by
  have tools : ∀ row ∈ p.toolRows, (row.length == 2) = false := fun row place => by
    simpa using toolRows_length place
  have root : ∀ row ∈ p.rootRows, (row.length == 2) = true := fun row place => by
    obtain ⟨m, -, rfl⟩ := List.mem_map.mp place
    rfl
  rw [List.filter_append, List.filter_append]
  constructor
  · rw [List.filter_eq_nil_iff.mpr fun row place => by simp [tools row place],
      List.filter_eq_self.mpr root, List.nil_append]
  · rw [List.filter_eq_self.mpr fun row place => by simp [bne, tools row place],
      List.filter_eq_nil_iff.mpr fun row place => by simp [bne, root row place], List.append_nil]

/-- The row of no tools is too short for a tool. -/
theorem tools_eq_filter (p : PromptPrefix) :
    p.tools.map HashedTool.row = p.toolRows.filter (·.length == 3) := by
  rw [toolRows]
  split_ifs with none
  · rw [List.isEmpty_iff.mp none]
    rfl
  · refine (List.filter_eq_self.mpr fun row place => ?_).symm
    obtain ⟨t, -, rfl⟩ := List.mem_map.mp place
    rfl

theorem rootRow_injective :
    Function.Injective fun m : String × String => [Utf8.encode m.1, Utf8.encode m.2] := by
  intro m n same
  simp only [List.cons.injEq, and_true] at same
  exact Prod.ext (Utf8.encode_injective same.1) (Utf8.encode_injective same.2)

theorem rows_inj (same : p.rows = q.rows) : p = q := by
  simp only [rows, List.cons.injEq, and_true] at same
  obtain ⟨instructions, rest⟩ := same
  have roots : p.rootRows = q.rootRows := by rw [← (filter_rows p).1, rest, (filter_rows q).1]
  have toolRows : p.toolRows = q.toolRows := by rw [← (filter_rows p).2, rest, (filter_rows q).2]
  have tools : p.tools = q.tools :=
    List.map_injective_iff.mpr HashedTool.row_injective
      (by rw [tools_eq_filter, toolRows, ← tools_eq_filter])
  have root : p.root.toList = q.root.toList :=
    List.map_injective_iff.mpr rootRow_injective roots
  cases p
  cases q
  simp only [PromptPrefix.mk.injEq]
  exact ⟨Utf8.encode_injective (by simpa using instructions), tools,
    by simpa using congrArg List.head? root⟩

end PromptPrefix

/-! ### Equal hashes -/

/-- The same instruction, the same tools up to their order, and the same first message. -/
structure PromptPrefix.Same (p q : PromptPrefix) : Prop where
  instruction : p.instruction = q.instruction
  tools : p.tools.Perm q.tools
  root : p.root = q.root

/-- A request whose beginning is plain and whose tools have names of their own. -/
structure PlainRequest where
  request : NormalizedRequest JsonValue
  plain : (promptPrefix request).Plain
  ownNames : (request.tools.map (·.name)).Nodup

theorem sortedTools_sorted (tools : List ToolDefinition) :
    (sortedTools tools).Pairwise fun t u => t.name ≤ u.name := by
  have trans : ∀ t u w : ToolDefinition, decide (t.name ≤ u.name) = true →
      decide (u.name ≤ w.name) = true → decide (t.name ≤ w.name) = true := by
    intro t u w first second
    simp only [decide_eq_true_eq] at first second ⊢
    exact first.trans second
  have total : ∀ t u : ToolDefinition,
      (decide (t.name ≤ u.name) || decide (u.name ≤ t.name)) = true := by
    intro t u
    simpa using le_total t.name u.name
  exact (List.pairwise_mergeSort trans total tools).imp fun before => by simpa using before

/-- With names of their own, tools stand in one order only. -/
theorem PlainRequest.promptPrefix_eq {r s : PlainRequest}
    (same : (promptPrefix r.request).Same (promptPrefix s.request)) :
    promptPrefix r.request = promptPrefix s.request := by
  have inOrder (r : PlainRequest) : (promptPrefix r.request).tools.Pairwise fun t u =>
      t.name ≤ u.name :=
    List.pairwise_map.mpr (sortedTools_sorted r.request.tools)
  have own (r : PlainRequest) : ((promptPrefix r.request).tools.map (·.name)).Nodup := by
    have perm : (sortedTools r.request.tools).Perm r.request.tools := List.mergeSort_perm _ _
    rw [promptPrefix, List.map_map]
    exact (perm.map (·.name)).nodup_iff.mpr r.ownNames
  have tools : (promptPrefix r.request).tools = (promptPrefix s.request).tools :=
    same.tools.eq_of_pairwise
      (fun t u inR inS le ge => List.inj_on_of_nodup_map (own r) inR (same.tools.mem_iff.mpr inS)
        (le_antisymm le ge))
      (inOrder r) (inOrder s)
  have instruction := same.instruction
  have root := same.root
  cases first : promptPrefix r.request
  cases second : promptPrefix s.request
  simp only [first, second] at tools instruction root
  rw [instruction, tools, root]

/-- The bytes that are hashed stand for the beginning of the prompt and nothing else. -/
theorem PlainRequest.hashedBytes_eq_iff (r s : PlainRequest) :
    hashedBytes r.request = hashedBytes s.request ↔
      (promptPrefix r.request).Same (promptPrefix s.request) := by
  rw [hashedBytes_eq, hashedBytes_eq]
  constructor
  · intro bytes
    have rows := Separators.writeRows_injective (by decide) r.plain.clean s.plain.clean bytes
    rw [PromptPrefix.rows_inj rows]
    exact ⟨rfl, .refl _, rfl⟩
  · intro same
    rw [PlainRequest.promptPrefix_eq same]

/-- Two inputs of a hash that it does not tell apart. -/
def Collides (sha256 : Utf8.Bytes → String) (a b : Utf8.Bytes) : Prop := a ≠ b ∧ sha256 a = sha256 b

/-- Two requests share a prefix hash exactly when they begin alike, collisions of the hash apart. -/
theorem computePrefixHash_eq_iff (sha256 : Utf8.Bytes → String) (r s : PlainRequest) :
    computePrefixHash sha256 r.request = computePrefixHash sha256 s.request ↔
      (promptPrefix r.request).Same (promptPrefix s.request) ∨
        Collides sha256 (hashedBytes r.request) (hashedBytes s.request) := by
  rw [← r.hashedBytes_eq_iff s, computePrefixHash, computePrefixHash, Collides]
  constructor
  · intro same
    by_cases bytes : hashedBytes r.request = hashedBytes s.request
    · exact .inl bytes
    · exact .inr ⟨bytes, same⟩
  · rintro (bytes | ⟨-, same⟩)
    · rw [bytes]
    · exact same

/-! ## The tracker -/

inductive CacheCall where
  | recordWarmCache (endpointId prefixHash : String)
  | isWarm (endpointId prefixHash : String)
  | reset

namespace PromptCacheTracker

def recordWarmCache (entries : PromptCacheTracker) (ttlSeconds : Seconds)
    (endpointId prefixHash : String) (now : Seconds) : PromptCacheTracker :=
  entries.set (endpointId, prefixHash) (now + ttlSeconds)

def after (ttlSeconds : Seconds) (entries : PromptCacheTracker) (now : Seconds) :
    CacheCall → PromptCacheTracker
  | .recordWarmCache endpointId prefixHash =>
      entries.recordWarmCache ttlSeconds endpointId prefixHash now
  | .isWarm endpointId prefixHash => (entries.isWarm endpointId prefixHash now).2
  | .reset => .empty

/-- Calls at the times that the clock gives them; it may be set back. -/
def run (ttlSeconds : Seconds) (calls : List (Seconds × CacheCall)) : PromptCacheTracker :=
  calls.foldl (fun entries call => after ttlSeconds entries call.1 call.2) .empty

/-- The call ends an entry that lasts until `expiresAt`. -/
def Ends (endpointId prefixHash : String) (expiresAt : Seconds) (call : Seconds × CacheCall) :
    Prop :=
  call.2 = .reset ∨ call.2 = .recordWarmCache endpointId prefixHash ∨
    call.2 = .isWarm endpointId prefixHash ∧ expiresAt ≤ call.1

/-- A record of the endpoint that no later call has ended. -/
def Recorded (ttlSeconds : Seconds) (endpointId prefixHash : String) (expiresAt : Seconds)
    (calls : List (Seconds × CacheCall)) : Prop :=
  ∃ before time later, calls = before ++ (time, .recordWarmCache endpointId prefixHash) :: later ∧
    expiresAt = time + ttlSeconds ∧ ∀ call ∈ later, ¬Ends endpointId prefixHash expiresAt call

variable {ttlSeconds expiresAt : Seconds} {endpointId prefixHash : String}

theorem run_snoc (ttlSeconds : Seconds) (calls : List (Seconds × CacheCall))
    (call : Seconds × CacheCall) :
    run ttlSeconds (calls ++ [call]) = after ttlSeconds (run ttlSeconds calls) call.1 call.2 := by
  rw [run, List.foldl_append]
  rfl

/-- A query removes the entry that it finds run out, and no other. -/
theorem get_isWarm (entries : PromptCacheTracker) (id hash : String) (now : Seconds) :
    (entries.isWarm id hash now).2.get (endpointId, prefixHash) = some expiresAt ↔
      entries.get (endpointId, prefixHash) = some expiresAt ∧
        ¬((id = endpointId ∧ hash = prefixHash) ∧ expiresAt ≤ now) := by
  by_cases here : id = endpointId ∧ hash = prefixHash
  · obtain ⟨rfl, rfl⟩ := here
    rw [isWarm]
    split
    · next none => simp [none]
    · next expires found =>
      split_ifs with late
      · simp only [Dict.get_erase_self, found, reduceCtorEq, Option.some.injEq, false_iff]
        rintro ⟨rfl, lasts⟩
        exact lasts ⟨⟨trivial, trivial⟩, late⟩
      · simp only [found, Option.some.injEq]
        constructor
        · rintro rfl
          exact ⟨rfl, fun ended => late ended.2⟩
        · exact And.left
  · have apart : (endpointId, prefixHash) ≠ (id, hash) := by
      simpa [eq_comm] using here
    rw [isWarm]
    split
    · simp [here]
    · split_ifs
      · simp [Dict.get_erase_ne _ apart, here]
      · simp [here]

/-- An entry is there after a call when the call makes it, or leaves it. -/
theorem get_after (entries : PromptCacheTracker) (call : Seconds × CacheCall) :
    (after ttlSeconds entries call.1 call.2).get (endpointId, prefixHash) = some expiresAt ↔
      call.2 = .recordWarmCache endpointId prefixHash ∧ expiresAt = call.1 + ttlSeconds ∨
        entries.get (endpointId, prefixHash) = some expiresAt ∧
          ¬Ends endpointId prefixHash expiresAt call := by
  obtain ⟨now, call⟩ := call
  cases call with
  | reset => simp [after, Ends]
  | recordWarmCache id hash =>
      simp only [after, recordWarmCache, Dict.get_set, Prod.mk.injEq, Ends, reduceCtorEq,
        CacheCall.recordWarmCache.injEq, false_or, false_and, or_false]
      by_cases here : id = endpointId ∧ hash = prefixHash
      · obtain ⟨rfl, rfl⟩ := here
        simp [eq_comm]
      · have other : ¬(endpointId = id ∧ prefixHash = hash) := fun same =>
          here ⟨same.1.symm, same.2.symm⟩
        simp [here, other]
  | isWarm id hash =>
      simp only [after, Ends, reduceCtorEq, CacheCall.isWarm.injEq, false_or, false_and]
      exact get_isWarm entries id hash now

theorem recorded_snoc (calls : List (Seconds × CacheCall)) (call : Seconds × CacheCall) :
    Recorded ttlSeconds endpointId prefixHash expiresAt (calls ++ [call]) ↔
      call.2 = .recordWarmCache endpointId prefixHash ∧ expiresAt = call.1 + ttlSeconds ∨
        Recorded ttlSeconds endpointId prefixHash expiresAt calls ∧
          ¬Ends endpointId prefixHash expiresAt call := by
  constructor
  · rintro ⟨before, time, later, split, expires, kept⟩
    rcases List.eq_nil_or_concat later with rfl | ⟨later, last, rfl⟩
    · obtain ⟨-, same⟩ := List.append_inj' split rfl
      obtain rfl := List.singleton_injective same
      exact .inl ⟨rfl, expires⟩
    · rw [List.concat_eq_append, ← List.cons_append, ← List.append_assoc] at split
      obtain ⟨rfl, same⟩ := List.append_inj' split rfl
      obtain rfl := List.singleton_injective same
      rw [List.concat_eq_append] at kept
      exact .inr ⟨⟨before, time, later, rfl, expires, fun other place =>
        kept other (List.mem_append_left _ place)⟩, kept call (by simp)⟩
  · rintro (⟨records, expires⟩ | ⟨⟨before, time, later, rfl, expires, kept⟩, leaves⟩)
    · exact ⟨calls, call.1, [], by rw [← records], expires, by simp⟩
    · refine ⟨before, time, later ++ [call], by simp, expires, fun other place => ?_⟩
      rcases List.mem_append.mp place with place | last
      · exact kept other place
      · rwa [List.mem_singleton.mp last]

/-- The entries of a tracker are the records that no later call has ended. -/
theorem get_run (ttlSeconds : Seconds) (calls : List (Seconds × CacheCall)) :
    (run ttlSeconds calls).get (endpointId, prefixHash) = some expiresAt ↔
      Recorded ttlSeconds endpointId prefixHash expiresAt calls := by
  induction calls using List.reverseRecOn generalizing expiresAt with
  | nil =>
      simp only [run, List.foldl_nil, Dict.get_empty, reduceCtorEq, false_iff]
      rintro ⟨before, time, later, split, -⟩
      simp at split
  | append_singleton calls call ih => rw [run_snoc, get_after, ih, recorded_snoc]

/-- Whatever was called before, an endpoint is warm while its last record has
    not run out and nothing since has ended it. -/
theorem isWarm_iff (ttlSeconds : Seconds) (calls : List (Seconds × CacheCall))
    (endpointId prefixHash : String) (now : Seconds) :
    ((run ttlSeconds calls).isWarm endpointId prefixHash now).1 = true ↔
      ∃ expiresAt, now < expiresAt ∧ Recorded ttlSeconds endpointId prefixHash expiresAt calls := by
  simp only [← get_run]
  rw [isWarm]
  split
  · next none => simp [none]
  · next expires found =>
    simp only [found, Option.some.injEq]
    split_ifs with late
    · simpa using late
    · simpa using not_le.mp late

end PromptCacheTracker

end DuraLLM
