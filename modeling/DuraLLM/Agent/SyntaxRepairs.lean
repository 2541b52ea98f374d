import DuraLLM.Agent.ToolValidation
import DuraLLM.Lib.JsonLiterals

/-! # What the syntactic repairs do to string literals

The removal of trailing commas goes over the whole text and knows nothing of
string literals.  It goes into each literal as if it stood alone, for no literal
begins or ends between a comma and the bracket behind it.
-/

namespace DuraLLM

open SyntaxRepair JsonLiterals

/-! ## Code fences -/

theorem stripSpace_within (chars : List Char) : stripSpace chars <:+: chars :=
  (List.rdropWhile_prefix _ _).isInfix.trans (List.dropWhile_suffix _).isInfix

theorem stripOpeningFence_suffix (chars : List Char) : stripOpeningFence chars <:+ chars :=
  ((List.dropWhile_suffix _).trans (List.dropWhile_suffix _)).trans (List.drop_suffix _ _)

theorem stripClosingFence_front (chars : List Char) : stripClosingFence chars <+: chars := by
  unfold stripClosingFence
  split
  · exact (List.rdropWhile_prefix _ _).trans (List.take_prefix _ _)
  · exact List.prefix_rfl

theorem stripFences_within (chars : List Char) : stripFences chars <:+: chars := by
  have inside := stripSpace_within chars
  dsimp only [stripFences]
  split
  · exact ((stripClosingFence_front _).isInfix.trans (stripOpeningFence_suffix _).isInfix).trans
      inside
  · exact inside

/-! ## Trailing commas -/

theorem isSpace_quote : isSpace '\x22' = false := by decide

theorem isSpace_backslash : isSpace '\x5c' = false := by decide

theorem isSpace_comma : isSpace ',' = false := by decide

/-- Nothing behind a quote closes what stands before it. -/
theorem closes_quoted (body rest : List Char) : closes (body ++ '\x22' :: rest) = closes body := by
  induction body with
  | nil => simp [closes, isSpace_quote]
  | cons c body ih => simp only [List.cons_append, closes, ih]

/-- A literal closes what the text from there on closes. -/
theorem closes_literal {rest body : List Char} {later : List (List Char)}
    (found : literalFrom rest = some (body, later)) : closes body = closes rest := by
  obtain ⟨behind, same⟩ := ((quoted_within rest.length rest le_rfl).2 body later found).1
  rw [← same, List.append_assoc, List.singleton_append, closes_quoted]

/-- Behind the blanks stands a closing bracket. -/
theorem strip_closing {rest : List Char} (closing : closes rest = true) :
    ∃ bracket after, stripCommasFrom true rest = bracket :: after ∧
      bracket ≠ '\x22' ∧ bracket ≠ '\x5c' := by
  induction rest with
  | nil => simp [closes] at closing
  | cons c rest ih =>
      rw [closes] at closing
      by_cases blank : isSpace c = true
      · rw [if_pos blank] at closing
        rw [stripCommasFrom, blank, if_pos (by rfl)]
        exact ih closing
      · rw [if_neg blank] at closing
        have bracket : c = ']' ∨ c = '\x7d' := by simpa using closing
        have notComma : c ≠ ',' := by
          cases bracket with
          | inl same => rw [same]; decide
          | inr same => rw [same]; decide
        refine ⟨c, stripCommasFrom false rest, by simp [stripCommasFrom, blank, notComma], ?_⟩
        cases bracket with
        | inl same => rw [same]; decide
        | inr same => rw [same]; decide

theorem strip_keeps {c : Char} (blank : isSpace c = false) (comma : c ≠ ',') (dropping : Bool)
    (rest : List Char) : stripCommasFrom dropping (c :: rest) = c :: stripCommasFrom false rest := by
  simp [stripCommasFrom, blank, comma]

theorem strip_quote (dropping : Bool) (rest : List Char) :
    stripCommasFrom dropping ('\x22' :: rest) = '\x22' :: stripCommasFrom false rest :=
  strip_keeps isSpace_quote (by decide) dropping rest

theorem strip_backslash (dropping : Bool) (rest : List Char) :
    stripCommasFrom dropping ('\x5c' :: rest) = '\x5c' :: stripCommasFrom false rest :=
  strip_keeps isSpace_backslash (by decide) dropping rest

/-- What becomes of a character: it goes with what is dropped, or it stays. -/
theorem strip_cons (dropping : Bool) (c : Char) (rest : List Char) :
    (c ≠ '\x22' ∧ c ≠ '\x5c' ∧ ∀ text, closes text = closes rest →
        stripCommasFrom dropping (c :: text) = stripCommasFrom true text) ∨
      ∀ text, closes text = closes rest →
        stripCommasFrom dropping (c :: text) = c :: stripCommasFrom false text := by
  by_cases blank : (dropping && isSpace c) = true
  · refine .inl ⟨?_, ?_, fun text _ => by rw [stripCommasFrom, if_pos blank]⟩
    · intro same
      simp [same, isSpace_quote] at blank
    · intro same
      simp [same, isSpace_backslash] at blank
  · by_cases comma : (c = ',' && closes rest) = true
    · have same : c = ',' := by simp_all
      refine .inl ⟨by rw [same]; decide, by rw [same]; decide, fun text alike => ?_⟩
      rw [stripCommasFrom, if_neg blank, alike, if_pos comma]
    · refine .inr fun text alike => ?_
      rw [stripCommasFrom, if_neg blank, alike, if_neg comma]

/-- A literal of the text with its commas stripped. -/
def strippedFrom (dropping : Bool) (p : List Char × List (List Char)) :
    List Char × List (List Char) :=
  (stripCommasFrom dropping p.1, p.2.map stripTrailingCommas)

/-- The literals of the stripped text, from outside a literal and from inside. -/
structure StripsLiterals (text : List Char) : Prop where
  outside : ∀ dropping,
    literals (stripCommasFrom dropping text) = (literals text).map stripTrailingCommas
  inside : ∀ dropping,
    literalFrom (stripCommasFrom dropping text) =
      (literalFrom text).map (strippedFrom dropping)

theorem strips_outside {c : Char} {rest : List Char} (ih : StripsLiterals rest) (dropping : Bool) :
    literals (stripCommasFrom dropping (c :: rest)) =
      (literals (c :: rest)).map stripTrailingCommas := by
  by_cases quote : c = '\x22'
  · rw [quote, strip_quote, literals_quote, literals_quote, ih.inside false]
    cases literalFrom rest <;> rfl
  · rw [literals_cons quote]
    cases strip_cons dropping c rest with
    | inl drops =>
        obtain ⟨_, _, drops⟩ := drops
        rw [drops rest rfl]
        exact ih.outside true
    | inr keeps =>
        rw [keeps rest rfl, literals_cons quote]
        exact ih.outside false

/-- A character of a literal that is not part of an escape. -/
theorem strips_char {c : Char} (quote : c ≠ '\x22') (backslash : c ≠ '\x5c') {rest : List Char}
    (ih : StripsLiterals rest) (dropping : Bool) :
    literalFrom (stripCommasFrom dropping (c :: rest)) =
      (literalFrom (c :: rest)).map (strippedFrom dropping) := by
  rw [literalFrom_cons quote backslash]
  cases strip_cons dropping c rest with
  | inl drops =>
      obtain ⟨_, _, drops⟩ := drops
      rw [drops rest rfl, ih.inside true]
      cases found : literalFrom rest with
      | none => rfl
      | some p => simp [strippedFrom, drops p.1 (closes_literal found)]
  | inr keeps =>
      rw [keeps rest rfl, literalFrom_cons quote backslash, ih.inside false]
      cases found : literalFrom rest with
      | none => rfl
      | some p => simp [strippedFrom, keeps p.1 (closes_literal found)]

/-- An escaped comma can go as well, and the bracket behind it is escaped then. -/
theorem strips_escape (c : Char) {rest : List Char} (ih : StripsLiterals rest) (dropping : Bool) :
    literalFrom (stripCommasFrom dropping ('\x5c' :: c :: rest)) =
      (literalFrom ('\x5c' :: c :: rest)).map (strippedFrom dropping) := by
  rw [strip_backslash, literalFrom_escape]
  by_cases comma : (c = ',' && closes rest) = true
  · have same : c = ',' := by simp_all
    have closing : closes rest = true := by simp_all
    have drops (text : List Char) (alike : closes text = closes rest) :
        stripCommasFrom false (c :: text) = stripCommasFrom true text := by
      rw [stripCommasFrom, alike, if_pos comma]
      simp
    obtain ⟨bracket, after, stripped, quote, backslash⟩ := strip_closing closing
    have inner := ih.inside true
    rw [stripped, literalFrom_cons quote backslash] at inner
    rw [drops rest rfl, stripped, literalFrom_escape]
    cases found : literalFrom rest with
    | none =>
        rw [found] at inner
        rw [Option.map_eq_none_iff.mp inner]
        rfl
    | some p =>
        rw [found] at inner
        obtain ⟨q, behind, same⟩ := Option.map_eq_some_iff.mp inner
        cases p with
        | mk body later =>
            simp only [strippedFrom, Prod.mk.injEq] at same
            simp [behind, strippedFrom, strip_backslash, drops body (closes_literal found), same]
  · have keeps (text : List Char) (alike : closes text = closes rest) :
        stripCommasFrom false (c :: text) = c :: stripCommasFrom false text := by
      rw [stripCommasFrom, alike, if_neg comma]
      simp
    rw [keeps rest rfl, literalFrom_escape, ih.inside false]
    cases found : literalFrom rest with
    | none => rfl
    | some p => simp [strippedFrom, strip_backslash, keeps p.1 (closes_literal found)]

theorem stripsLiterals (length : Nat) :
    ∀ text : List Char, text.length ≤ length → StripsLiterals text := by
  induction length with
  | zero =>
      intro text short
      rw [List.length_eq_zero_iff.mp (Nat.le_zero.mp short)]
      exact ⟨fun _ => rfl, fun _ => rfl⟩
  | succ length ih =>
      intro text short
      constructor
      · cases text with
        | nil => exact fun _ => rfl
        | cons c rest => exact strips_outside (ih rest (by simpa using short))
      · cases begins text with
        | nil => exact fun _ => rfl
        | closed rest =>
            intro dropping
            rw [strip_quote, literalFrom_quote, literalFrom_quote]
            rw [(ih rest (by simpa using short)).outside false]
            rfl
        | backslash =>
            intro dropping
            rw [strip_backslash]
            rfl
        | escape c rest => exact strips_escape c (ih rest (by simp at short; omega))
        | char quote backslash rest =>
            exact strips_char quote backslash (ih rest (by simpa using short))

/-- The commas go literal by literal. -/
theorem literals_strip (text : List Char) :
    literals (stripTrailingCommas text) = (literals text).map stripTrailingCommas :=
  (stripsLiterals text.length text le_rfl).outside false

/-! ## Literals that stay as they are -/

/-- Somewhere a comma stands with nothing but blanks between it and a closing bracket. -/
def HasTrailingComma (text : List Char) : Prop :=
  ∃ before rest, text = before ++ ',' :: rest ∧ closes rest = true

theorem hasTrailingComma_cons (c : Char) (rest : List Char) :
    HasTrailingComma (c :: rest) ↔ (c = ',' ∧ closes rest = true) ∨ HasTrailingComma rest := by
  constructor
  · rintro ⟨before, after, same, closing⟩
    cases before with
    | nil =>
        cases same
        exact .inl ⟨rfl, closing⟩
    | cons d before =>
        cases same
        exact .inr ⟨before, after, rfl, closing⟩
  · intro either
    cases either with
    | inl here => exact ⟨[], rest, by rw [here.1, List.nil_append], here.2⟩
    | inr there =>
        obtain ⟨before, after, same, closing⟩ := there
        exact ⟨c :: before, after, by rw [same, List.cons_append], closing⟩

theorem strip_length (dropping : Bool) (text : List Char) :
    (stripCommasFrom dropping text).length ≤ text.length := by
  induction text generalizing dropping with
  | nil => exact Nat.le_refl 0
  | cons c rest ih =>
      rw [stripCommasFrom]
      have shorter := ih true
      have kept := ih false
      split
      · simp only [List.length_cons]
        omega
      · split
        · simp only [List.length_cons]
          omega
        · simp only [List.length_cons]
          omega

theorem strip_eq_iff (text : List Char) :
    stripTrailingCommas text = text ↔ ¬HasTrailingComma text := by
  induction text with
  | nil =>
      constructor
      · rintro _ ⟨before, rest, same, _⟩
        simp at same
      · exact fun _ => rfl
  | cons c rest ih =>
      rw [hasTrailingComma_cons, stripTrailingCommas, stripCommasFrom, Bool.false_and,
        if_neg Bool.false_ne_true]
      split
      · next comma =>
        have shorter := strip_length true rest
        constructor
        · intro same
          have lengths := congrArg List.length same
          rw [List.length_cons] at lengths
          omega
        · intro none
          simp_all
      · next kept =>
        rw [List.cons_inj_right, show stripCommasFrom false rest = rest ↔ _ from ih]
        simp_all

/-- The literals of a text stay as they are when no comma stands before a bracket
    in any of them. -/
theorem literals_kept_iff (text : List Char) :
    literals (stripTrailingCommas text) = literals text ↔
      ∀ body ∈ literals text, ¬HasTrailingComma body := by
  rw [literals_strip]
  constructor
  · intro same body member
    have alike := List.map_inj_left.mp (same.trans (List.map_id _).symm) body member
    exact (strip_eq_iff body).mp alike
  · intro plain
    have alike : ∀ body ∈ literals text, stripTrailingCommas body = id body :=
      fun body member => (strip_eq_iff body).mpr (plain body member)
    exact (List.map_inj_left.mpr alike).trans (List.map_id _)

/-! ## Normalization -/

variable {F X : Type} [DecidableEq X]

/-- The text that the JSON reader gets. -/
def cleanedText (raw : String) : List Char := stripTrailingCommas (stripFences raw.toList)

/-- The text is normalized to this object, and the object is read as JSON. -/
def ThroughJson (rt : DynRuntime F X) (raw : String) (parsed : DynEntries F X) : Prop :=
  (normalizeJsonSyntax rt raw).1 = some parsed ∧
    rt.loads false (String.ofList (cleanedText raw)) = some (.dict parsed)

/-- Only the text that the reader gets has to be looked at. -/
theorem throughJson_of_read {rt : DynRuntime F X} {raw : String} {parsed : DynEntries F X}
    {chars : List Char} (some_text : raw.toList.all isSpace = false)
    (cleaned : cleanedText raw = chars) (noMark : chars.head? ≠ some '\ufeff')
    (read : rt.readValue false (chars.length + 1) (JsonRaw.skip chars) = some (.dict parsed, [])) :
    ThroughJson rt raw parsed := by
  have loaded : rt.loads false (String.ofList (cleanedText raw)) = some (.dict parsed) := by
    rw [DynRuntime.loads, String.toList_ofList, cleaned, if_neg noMark, read]
    rfl
  refine ⟨?_, loaded⟩
  rw [cleanedText] at loaded
  rw [normalizeJsonSyntax, some_text, if_neg Bool.false_ne_true]
  simp only [loaded]

/-- Texts of the object come from literals of the raw text, and literals are
    untouched. -/
structure LiteralsKept (raw : String) (parsed : DynEntries F X) : Prop where
  verbatim : ∀ s ∈ (DynValue.dict parsed).texts, ∃ body ∈ literals (stripFences raw.toList),
    ('\x22' :: (body ++ ['\x22'])) <:+: raw.toList ∧ decodeLiteral body = some s
  untouched : literals (cleanedText raw) = literals (stripFences raw.toList)

/-- Whatever the repairs did, a text of the object is the decoding of a literal of
    the raw text from which trailing commas were taken. -/
theorem text_of_stripped_literal {rt : DynRuntime F X} {raw : String} {parsed : DynEntries F X}
    (read : ThroughJson rt raw parsed) {s : String} (member : s ∈ (DynValue.dict parsed).texts) :
    ∃ body ∈ literals (stripFences raw.toList),
      ('\x22' :: (body ++ ['\x22'])) <:+: raw.toList ∧
        decodeLiteral (stripTrailingCommas body) = some s := by
  obtain ⟨stripped, among, decoded⟩ := texts_of_loads read.2 member
  rw [String.toList_ofList, cleanedText, literals_strip] at among
  obtain ⟨body, original, same⟩ := List.mem_map.mp among
  exact ⟨body, original, (quoted_of_mem original).trans (stripFences_within _), same ▸ decoded⟩

/-- Repairs leave the texts of the object alone exactly when no string literal has
    a comma before a closing bracket in it. -/
theorem repair_keeps_literals_iff (rt : DynRuntime F X) (raw : String) (parsed : DynEntries F X)
    (read : ThroughJson rt raw parsed) :
    LiteralsKept raw parsed ↔
      ∀ body ∈ literals (stripFences raw.toList), ¬HasTrailingComma body := by
  constructor
  · intro kept
    exact (literals_kept_iff _).mp kept.untouched
  · intro plain
    have untouched := (literals_kept_iff _).mpr plain
    refine ⟨fun s member => ?_, untouched⟩
    obtain ⟨body, original, within, decoded⟩ := text_of_stripped_literal read member
    rw [(strip_eq_iff body).mpr (plain body original)] at decoded
    exact ⟨body, original, within, decoded⟩

theorem repair_keeps_literals_plain :
    LiteralsKept "\x7b\"a\": \"x\",\x7d" [(.text "a", (.str "x" : DynValue String Empty))] := by
  have literalsOf : literals (stripFences "\x7b\"a\": \"x\",\x7d".toList) = [['a'], ['x']] := by
    decide
  have read : ThroughJson DynRuntime.ascii "\x7b\"a\": \"x\",\x7d" [(.text "a", .str "x")] :=
    throughJson_of_read (by decide)
      (show _ = ['\x7b', '\x22', 'a', '\x22', ':', ' ', '\x22', 'x', '\x22', '\x7d'] by decide)
      (by decide) rfl
  refine (repair_keeps_literals_iff DynRuntime.ascii _ _ read).mpr ?_
  intro body member
  rw [literalsOf] at member
  rw [← strip_eq_iff]
  simp only [List.mem_cons, List.not_mem_nil, or_false] at member
  cases member with
  | inl same => rw [same]; decide
  | inr same => rw [same]; decide

/-- The comma behind the member makes the text one for the repairs, and the comma in
    the string goes as well. -/
theorem comma_in_literal_stripped :
    ¬∀ (raw : String) (parsed : DynEntries String Empty),
      ThroughJson .ascii raw parsed → LiteralsKept raw parsed := by
  intro keeps
  have kept := keeps "\x7b\"a\": \"x,]\",\x7d" [(.text "a", .str "x]")]
    (throughJson_of_read (by decide)
      (show _ = ['\x7b', '\x22', 'a', '\x22', ':', ' ', '\x22', 'x', ']', '\x22', '\x7d'] by decide)
      (by decide) rfl)
  have literalsOf :
      literals (stripFences "\x7b\"a\": \"x,]\",\x7d".toList) = [['a'], ['x', ',', ']']] := by
    decide
  obtain ⟨body, among, _, decoded⟩ := kept.verbatim "x]" (by simp [DynValue.texts,
    DynValue.textsOfEntries])
  rw [literalsOf] at among
  simp only [List.mem_cons, List.not_mem_nil, or_false] at among
  cases among with
  | inl same =>
      rw [same] at decoded
      exact absurd decoded (by decide)
  | inr same =>
      rw [same] at decoded
      exact absurd decoded (by decide)

end DuraLLM
