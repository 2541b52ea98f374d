import DuraLLM.Lib.DynJson
import Mathlib.Data.List.TakeWhile

/-! # String literals of a text

The string literals of a text from left to right, and what the JSON reader makes
of them: every text in a value that was read is the decoding of one of them.
-/

namespace JsonLiterals

mutual

/-- The string literals of a text that begins outside of one, without their
    quotes.  A literal that is never closed is none. -/
def literals : List Char → List (List Char)
  | [] => []
  | c :: rest =>
      if c = '\x22' then
        match literalFrom rest with
        | some (body, later) => body :: later
        | none => []
      else literals rest

/-- The rest of a literal and the literals behind it. -/
def literalFrom : List Char → Option (List Char × List (List Char))
  | [] => none
  | '\x22' :: rest => some ([], literals rest)
  | '\x5c' :: c :: rest => (literalFrom rest).map fun p => ('\x5c' :: c :: p.1, p.2)
  | c :: rest => (literalFrom rest).map fun p => (c :: p.1, p.2)

end

/-- What a reader that takes control characters makes of a literal. -/
def decodeLiteral (body : List Char) : Option String :=
  match DynJson.readString false (body ++ ['\x22']) with
  | some (s, []) => some s
  | _ => none

theorem literals_quote (rest : List Char) :
    literals ('\x22' :: rest) =
      match literalFrom rest with
      | some (body, later) => body :: later
      | none => [] := by
  rw [literals, if_pos rfl]

theorem literals_cons {c : Char} (other : c ≠ '\x22') (rest : List Char) :
    literals (c :: rest) = literals rest := by
  rw [literals, if_neg other]

/-- Text without quotes has no part in a literal that begins behind it. -/
theorem literals_append {front : List Char} (plain : '\x22' ∉ front) (rest : List Char) :
    literals (front ++ rest) = literals rest := by
  induction front with
  | nil => rfl
  | cons c front ih =>
      simp only [List.mem_cons, not_or] at plain
      rw [List.cons_append, literals_cons (Ne.symm plain.1), ih plain.2]

theorem literalFrom_cons {c : Char} (quote : c ≠ '\x22') (backslash : c ≠ '\x5c') (rest : List Char) :
    literalFrom (c :: rest) = (literalFrom rest).map fun p => (c :: p.1, p.2) := by
  rw [literalFrom]
  · exact fun same => quote same
  · exact fun _ _ same _ => backslash same

theorem literalFrom_escape (c : Char) (rest : List Char) :
    literalFrom ('\x5c' :: c :: rest) =
      (literalFrom rest).map fun p => ('\x5c' :: c :: p.1, p.2) := by
  rw [literalFrom]

theorem literalFrom_quote (rest : List Char) :
    literalFrom ('\x22' :: rest) = some ([], literals rest) := by
  rw [literalFrom]

/-- What follows an opening quote: nothing, the closing quote, an escape or a
    character of the literal. -/
inductive Begins : List Char → Prop where
  | nil : Begins []
  | closed (rest : List Char) : Begins ('\x22' :: rest)
  | backslash : Begins ['\x5c']
  | escape (c : Char) (rest : List Char) : Begins ('\x5c' :: c :: rest)
  | char {c : Char} (quote : c ≠ '\x22') (backslash : c ≠ '\x5c') (rest : List Char) :
      Begins (c :: rest)

theorem begins (text : List Char) : Begins text := by
  cases text with
  | nil => exact .nil
  | cons c rest =>
      by_cases quote : c = '\x22'
      · rw [quote]
        exact .closed rest
      · by_cases backslash : c = '\x5c'
        · rw [backslash]
          cases rest with
          | nil => exact .backslash
          | cons d rest => exact .escape d rest
        · exact .char quote backslash rest

/-- A literal stands in the text between its quotes. -/
theorem quoted_within (length : Nat) : ∀ text : List Char, text.length ≤ length →
    (∀ body ∈ literals text, ('\x22' :: (body ++ ['\x22'])) <:+: text) ∧
      ∀ body later, literalFrom text = some (body, later) → (body ++ ['\x22']) <+: text ∧
        ∀ other ∈ later, ('\x22' :: (other ++ ['\x22'])) <:+: text := by
  induction length with
  | zero =>
      intro text short
      rw [List.length_eq_zero_iff.mp (Nat.le_zero.mp short)]
      simp [literals, literalFrom]
  | succ length ih =>
      intro text short
      constructor
      · intro body member
        cases text with
        | nil => simp [literals] at member
        | cons c rest =>
            obtain ⟨outside, inside⟩ := ih rest (by simpa using short)
            rw [literals] at member
            split at member
            · next quote =>
              cases found : literalFrom rest with
              | none => simp [found] at member
              | some p =>
                  obtain ⟨here, later⟩ := p
                  simp only [found, List.mem_cons] at member
                  obtain ⟨first, others⟩ := inside here later found
                  cases member with
                  | inl same =>
                      rw [same, quote]
                      exact ((List.prefix_cons_inj '\x22').mpr first).isInfix
                  | inr member => exact List.infix_cons (others body member)
            · exact List.infix_cons (outside body member)
      · intro body later found
        cases begins text with
        | nil => simp [literalFrom] at found
        | closed rest =>
            obtain ⟨outside, _⟩ := ih rest (by simpa using short)
            rw [literalFrom_quote] at found
            cases found
            exact ⟨by simp, fun other member => List.infix_cons (outside other member)⟩
        | backslash => simp [literalFrom] at found
        | escape c rest =>
            obtain ⟨_, inside⟩ := ih rest (by simp at short; omega)
            rw [literalFrom_escape] at found
            obtain ⟨p, inner, same⟩ := Option.map_eq_some_iff.mp found
            cases same
            obtain ⟨first, others⟩ := inside p.1 p.2 inner
            exact ⟨by simpa using first,
              fun other member => List.infix_cons (List.infix_cons (others other member))⟩
        | char quote backslash rest =>
            obtain ⟨_, inside⟩ := ih rest (by simpa using short)
            rw [literalFrom_cons quote backslash] at found
            obtain ⟨p, inner, same⟩ := Option.map_eq_some_iff.mp found
            cases same
            obtain ⟨first, others⟩ := inside p.1 p.2 inner
            exact ⟨by simpa using first,
              fun other member => List.infix_cons (others other member)⟩

theorem quoted_of_mem {text body : List Char} (member : body ∈ literals text) :
    ('\x22' :: (body ++ ['\x22'])) <:+: text :=
  (quoted_within text.length text le_rfl).1 body member

end JsonLiterals

/-! ## The texts of a value -/

namespace DynValue

variable {F X : Type}

def textsOfKey : DynKey X → List String
  | .text s => [s]
  | .other _ => []

mutual

/-- The texts in a value: its strings and its keys. -/
def texts : DynValue F X → List String
  | .str s => [s]
  | .list items => textsOfItems items
  | .dict entries => textsOfEntries entries
  | _ => []

def textsOfItems : List (DynValue F X) → List String
  | [] => []
  | item :: items => item.texts ++ textsOfItems items

def textsOfEntries : List (DynKey X × DynValue F X) → List String
  | [] => []
  | (key, value) :: entries => textsOfKey key ++ value.texts ++ textsOfEntries entries

end

/-- The texts of the members of an object as they are read. -/
def textsOfMembers (members : List (String × DynValue F X)) : List String :=
  members.flatMap fun m => m.1 :: m.2.texts

variable [DecidableEq X]

theorem textsOfEntries_set (key : String) (value : DynValue F X) (entries : DynEntries F X) :
    textsOfEntries (Entries.set (.text key) value entries) ⊆
      key :: value.texts ++ textsOfEntries entries := by
  intro s member
  induction entries with
  | nil => simpa [Entries.set, textsOfEntries, textsOfKey] using member
  | cons entry entries ih =>
      obtain ⟨other, old⟩ := entry
      rw [Entries.set] at member
      split at member
      · next same =>
        rw [same] at *
        simp only [textsOfEntries, textsOfKey, List.mem_append, List.mem_cons] at member ⊢
        grind
      · simp only [textsOfEntries, List.mem_append, List.mem_cons] at member ih ⊢
        grind

/-- A dictionary of members has the texts of members only. -/
theorem textsOfEntries_ofMembers (members : List (String × DynValue F X)) :
    textsOfEntries (DynRuntime.ofMembers members) ⊆ textsOfMembers members := by
  have run (entries : DynEntries F X) :
      textsOfEntries (members.foldl
        (fun entries m => Entries.set (.text m.1) m.2 entries) entries) ⊆
        textsOfMembers members ++ textsOfEntries entries := by
    induction members generalizing entries with
    | nil => simp [textsOfMembers]
    | cons m members ih =>
        intro s member
        have rest := ih (Entries.set (.text m.1) m.2 entries) member
        have first := textsOfEntries_set m.1 m.2 entries (a := s)
        simp only [textsOfMembers, List.flatMap_cons, List.mem_append, List.mem_cons] at rest first ⊢
        grind
  have whole := run []
  rwa [textsOfEntries, List.append_nil] at whole

end DynValue

/-! ## What the reader passes -/

namespace JsonLiterals

/-- Between two places of a text stand literals that decode to these texts. -/
def Passes (chars rest : List Char) (texts : List String) : Prop :=
  ∃ passed, literals chars = passed ++ literals rest ∧
    ∀ s ∈ texts, ∃ body ∈ passed, decodeLiteral body = some s

theorem Passes.trans {chars middle rest : List Char} {first second : List String}
    (front : Passes chars middle first) (back : Passes middle rest second) :
    Passes chars rest (first ++ second) := by
  obtain ⟨passed, begins, decoded⟩ := front
  obtain ⟨later, goesOn, decodedLater⟩ := back
  refine ⟨passed ++ later, by rw [begins, goesOn, List.append_assoc], ?_⟩
  intro s member
  cases List.mem_append.mp member with
  | inl here =>
      obtain ⟨body, inside, same⟩ := decoded s here
      exact ⟨body, List.mem_append_left _ inside, same⟩
  | inr there =>
      obtain ⟨body, inside, same⟩ := decodedLater s there
      exact ⟨body, List.mem_append_right _ inside, same⟩

theorem Passes.mono {chars rest : List Char} {texts fewer : List String}
    (passes : Passes chars rest texts) (subset : fewer ⊆ texts) : Passes chars rest fewer := by
  obtain ⟨passed, begins, decoded⟩ := passes
  exact ⟨passed, begins, fun s member => decoded s (subset member)⟩

theorem Passes.plain {front : List Char} (noQuote : '\x22' ∉ front) (rest : List Char) :
    Passes (front ++ rest) rest [] :=
  ⟨[], by simpa using literals_append noQuote rest, by simp⟩

theorem Passes.char {c : Char} (noQuote : c ≠ '\x22') (rest : List Char) :
    Passes (c :: rest) rest [] :=
  ⟨[], literals_cons noQuote rest, by simp⟩

theorem passes_skip (chars : List Char) : Passes chars (JsonRaw.skip chars) [] := by
  have split : chars = chars.takeWhile JsonRaw.blank ++ JsonRaw.skip chars := by
    rw [JsonRaw.skip, List.takeWhile_append_dropWhile]
  have noQuote : '\x22' ∉ chars.takeWhile JsonRaw.blank := by
    intro member
    have blank := List.mem_takeWhile_imp member
    cases blank
  have passes := Passes.plain noQuote (JsonRaw.skip chars)
  rwa [← split] at passes

/-! ### Strings -/

theorem readHex4_plain {a b c d : Char} {unit : Nat} (read : JsonString.readHex4 a b c d = some unit) :
    ∀ x ∈ [a, b, c, d], x ≠ '\x22' ∧ x ≠ '\x5c' := by
  have digit {x : Char} {n : Nat} (hex : JsonString.hexValue x = some n) :
      x ≠ '\x22' ∧ x ≠ '\x5c' := by
    constructor <;>
      · intro same
        rw [same] at hex
        cases hex
  cases first : JsonString.hexValue a with
  | none => simp [JsonString.readHex4, first] at read
  | some =>
      cases second : JsonString.hexValue b with
      | none => simp [JsonString.readHex4, first, second] at read
      | some =>
          cases third : JsonString.hexValue c with
          | none => simp [JsonString.readHex4, first, second, third] at read
          | some =>
              cases fourth : JsonString.hexValue d with
              | none => simp [JsonString.readHex4, first, second, third, fourth] at read
              | some =>
                  simp only [List.forall_mem_cons]
                  exact ⟨digit first, digit second, digit third, digit fourth, by simp⟩

theorem simpleEscape_u : JsonString.simpleEscape 'u' = none := rfl

theorem readUnits_escape {c : Char} {strict : Bool} {unit : Nat}
    (escape : JsonString.simpleEscape c = some unit) (rest : List Char) :
    DynJson.readUnits strict ('\x5c' :: c :: rest) =
      (DynJson.readUnits strict rest).map fun p => (unit :: p.1, p.2) := by
  rw [DynJson.readUnits, escape]
  · cases DynJson.readUnits strict rest <;> rfl
  · intro _ _ _ _ _ same _
    rw [same, simpleEscape_u] at escape
    cases escape

theorem readUnits_char {c : Char} (quote : c ≠ '\x22') (backslash : c ≠ '\x5c') (rest : List Char) :
    DynJson.readUnits false (c :: rest) =
      (DynJson.readUnits false rest).map fun p => (c.toNat :: p.1, p.2) := by
  rw [DynJson.readUnits]
  · cases DynJson.readUnits false rest <;> rfl
  · exact quote
  · exact fun _ _ _ _ _ same _ => backslash same
  · exact fun _ _ same _ => backslash same

/-- The reader goes through the literal that begins there, and reads it alone as
    it reads it in the text. -/
theorem literalFrom_of_readUnits {strict : Bool} {chars rest : List Char} {units : List Nat}
    (read : DynJson.readUnits strict chars = some (units, rest)) :
    ∃ body, literalFrom chars = some (body, literals rest) ∧
      DynJson.readUnits false (body ++ ['\x22']) = some (units, []) := by
  fun_induction DynJson.readUnits strict chars generalizing units with
  | case1 =>
      cases read
      exact ⟨[], literalFrom_quote _, rfl⟩
  | case2 a b c d later ih =>
      obtain ⟨unit, hex, read⟩ := Option.bind_eq_some_iff.mp read
      obtain ⟨⟨further, after⟩, inner, read⟩ := Option.bind_eq_some_iff.mp read
      cases read
      obtain ⟨body, found, alone⟩ := ih inner
      have plain := readHex4_plain hex
      simp only [List.forall_mem_cons] at plain
      obtain ⟨⟨qa, ba⟩, ⟨qb, bb⟩, ⟨qc, bc⟩, ⟨qd, bd⟩, _⟩ := plain
      refine ⟨'\x5c' :: 'u' :: a :: b :: c :: d :: body, ?_, ?_⟩
      · rw [literalFrom_escape, literalFrom_cons qa ba, literalFrom_cons qb bb,
          literalFrom_cons qc bc, literalFrom_cons qd bd, found]
        rfl
      · simp only [List.cons_append]
        rw [DynJson.readUnits, hex, alone]
        rfl
  | case3 c later _ ih =>
      obtain ⟨unit, escape, read⟩ := Option.bind_eq_some_iff.mp read
      obtain ⟨⟨further, after⟩, inner, read⟩ := Option.bind_eq_some_iff.mp read
      cases read
      obtain ⟨body, found, alone⟩ := ih inner
      refine ⟨'\x5c' :: c :: body, ?_, ?_⟩
      · rw [literalFrom_escape, found]
        rfl
      · rw [List.cons_append, List.cons_append, readUnits_escape escape, alone]
        rfl
  | case4 => cases read
  | case5 c later quote _ escaped _ ih =>
      obtain ⟨⟨further, after⟩, inner, read⟩ := Option.bind_eq_some_iff.mp read
      cases read
      obtain ⟨body, found, alone⟩ := ih inner
      have backslash : c ≠ '\x5c' := by
        intro same
        cases later with
        | nil => simp [DynJson.readUnits] at inner
        | cons d later => exact escaped d later same rfl
      refine ⟨c :: body, ?_, ?_⟩
      · rw [literalFrom_cons quote backslash, found]
        rfl
      · rw [List.cons_append, readUnits_char quote backslash, alone]
        rfl
  | case6 => cases read

theorem passes_string {strict : Bool} {chars rest : List Char} {s : String}
    (read : DynJson.readString strict chars = some (s, rest)) :
    Passes ('\x22' :: chars) rest [s] := by
  obtain ⟨⟨units, after⟩, readUnits, read⟩ := Option.bind_eq_some_iff.mp read
  obtain ⟨text, joined, read⟩ := Option.bind_eq_some_iff.mp read
  cases read
  obtain ⟨body, found, alone⟩ := literalFrom_of_readUnits readUnits
  refine ⟨[body], by rw [literals_quote, found]; rfl, ?_⟩
  intro s member
  rw [List.mem_singleton.mp member]
  have decoded : DynJson.readString false (body ++ ['\x22']) = some (String.ofList text, []) := by
    rw [DynJson.readString, alone]
    simp [joined]
  exact ⟨body, List.mem_singleton.mpr rfl, by rw [decodeLiteral, decoded]⟩

/-! ### Names and numbers -/

/-- Nothing that stands in front of the rest is a quote. -/
def NoQuotes (chars rest : List Char) : Prop := ∃ front, chars = front ++ rest ∧ '\x22' ∉ front

theorem NoQuotes.passes {chars rest : List Char} (plain : NoQuotes chars rest) :
    Passes chars rest [] := by
  obtain ⟨front, same, noQuote⟩ := plain
  rw [same]
  exact Passes.plain noQuote rest

theorem NoQuotes.refl (chars : List Char) : NoQuotes chars chars := ⟨[], rfl, by simp⟩

theorem NoQuotes.trans {chars middle rest : List Char} (front : NoQuotes chars middle)
    (back : NoQuotes middle rest) : NoQuotes chars rest := by
  obtain ⟨first, sameFirst, plainFirst⟩ := front
  obtain ⟨second, sameSecond, plainSecond⟩ := back
  exact ⟨first ++ second, by rw [sameFirst, sameSecond, List.append_assoc],
    by simp [plainFirst, plainSecond]⟩

theorem NoQuotes.cons {c : Char} (noQuote : c ≠ '\x22') {chars rest : List Char}
    (plain : NoQuotes chars rest) : NoQuotes (c :: chars) rest := by
  obtain ⟨front, same, noQuotes⟩ := plain
  exact ⟨c :: front, by rw [same, List.cons_append], by simp [noQuotes, noQuote.symm]⟩

theorem noQuotes_digits (chars : List Char) : NoQuotes chars (chars.dropWhile Char.isDigit) := by
  refine ⟨chars.takeWhile Char.isDigit, (List.takeWhile_append_dropWhile).symm, ?_⟩
  intro member
  have digit := List.mem_takeWhile_imp member
  cases digit

theorem noQuotes_matchNat {chars token rest : List Char}
    (read : DynJson.matchNat chars = some (token, rest)) : NoQuotes chars rest := by
  unfold DynJson.matchNat at read
  split at read
  · cases read
    exact .cons (by decide) (.refl _)
  · next c later _ =>
    split at read
    · next digit =>
      cases read
      have noQuote : c ≠ '\x22' := by
        intro same
        rw [same] at digit
        cases digit
      exact .cons noQuote (noQuotes_digits later)
    · cases read
  · cases read

theorem noQuotes_matchInt {chars token rest : List Char}
    (read : DynJson.matchInt chars = some (token, rest)) : NoQuotes chars rest := by
  unfold DynJson.matchInt at read
  split at read
  · obtain ⟨p, inner, same⟩ := Option.map_eq_some_iff.mp read
    cases same
    exact .cons (by decide) (noQuotes_matchNat inner)
  · exact noQuotes_matchNat read

theorem noQuotes_matchFraction (chars : List Char) :
    NoQuotes chars (DynJson.matchFraction chars).2 := by
  unfold DynJson.matchFraction
  split
  · next later =>
    dsimp only
    split
    · exact .refl _
    · exact .cons (by decide) (noQuotes_digits later)
  · exact .refl _

theorem noQuotes_matchSign (chars : List Char) : NoQuotes chars (DynJson.matchSign chars).2 := by
  unfold DynJson.matchSign
  split
  · exact .cons (by decide) (.refl _)
  · exact .cons (by decide) (.refl _)
  · exact .refl _

theorem noQuotes_matchExponent (chars : List Char) :
    NoQuotes chars (DynJson.matchExponent chars).2 := by
  unfold DynJson.matchExponent
  split
  · next c later =>
    dsimp only
    split
    · next power =>
      have noQuote : c ≠ '\x22' := by
        intro same
        rw [same] at power
        simp at power
      exact .cons noQuote ((noQuotes_matchSign later).trans (noQuotes_digits _))
    · exact .refl _
  · exact .refl _

variable {F X : Type} (rt : DynRuntime F X)

theorem passes_number {chars rest : List Char} {v : DynValue F X}
    (read : rt.readNumber chars = some (v, rest)) : Passes chars rest v.texts := by
  obtain ⟨⟨whole, afterWhole⟩, matched, read⟩ := Option.bind_eq_some_iff.mp read
  have plain : NoQuotes chars
      (DynJson.matchExponent (DynJson.matchFraction afterWhole).2).2 :=
    ((noQuotes_matchInt matched).trans (noQuotes_matchFraction _)).trans
      (noQuotes_matchExponent _)
  dsimp only at read
  split at read
  · obtain ⟨n, _, same⟩ := Option.bind_eq_some_iff.mp read
    cases same
    exact plain.passes
  · obtain ⟨f, _, same⟩ := Option.bind_eq_some_iff.mp read
    cases same
    exact plain.passes

theorem passes_scalar {chars rest : List Char} {v : DynValue F X}
    (read : rt.readScalar chars = some (v, rest)) : Passes chars rest v.texts := by
  have word (name after : List Char) (noQuote : '\x22' ∉ name) :
      Passes (name ++ after) after [] := Passes.plain noQuote after
  unfold DynRuntime.readScalar at read
  split at read
  · cases read
    exact word "null".toList rest (by decide)
  · cases read
    exact word "true".toList rest (by decide)
  · cases read
    exact word "false".toList rest (by decide)
  · obtain ⟨f, _, same⟩ := Option.map_eq_some_iff.mp read
    cases same
    exact word "NaN".toList rest (by decide)
  · obtain ⟨f, _, same⟩ := Option.map_eq_some_iff.mp read
    cases same
    exact word "Infinity".toList rest (by decide)
  · obtain ⟨f, _, same⟩ := Option.map_eq_some_iff.mp read
    cases same
    exact word "-Infinity".toList rest (by decide)
  · exact passes_number rt read

/-! ### Values -/

theorem passes_blanks {chars rest : List Char} {texts : List String}
    (passes : Passes (JsonRaw.skip chars) rest texts) : Passes chars rest texts :=
  (passes_skip chars).trans passes

variable [DecidableEq X]

/-- What the reader passes on its way through a value, a list and an object. -/
structure ReadsThrough (strict : Bool) (fuel : Nat) : Prop where
  value : ∀ chars (v : DynValue F X) rest, rt.readValue strict fuel chars = some (v, rest) →
    Passes chars rest v.texts
  items : ∀ chars (items : List (DynValue F X)) rest,
    rt.readItems strict fuel chars = some (items, rest) →
      Passes chars rest (DynValue.textsOfItems items)
  members : ∀ chars (members : List (String × DynValue F X)) rest,
    rt.readMembers strict fuel chars = some (members, rest) →
      Passes chars rest (DynValue.textsOfMembers members)

variable {rt} {strict : Bool} {fuel : Nat}

theorem passes_value (ih : ReadsThrough rt strict fuel) {chars rest : List Char}
    {v : DynValue F X} (read : rt.readValue strict (fuel + 1) chars = some (v, rest)) :
    Passes chars rest v.texts := by
  unfold DynRuntime.readValue at read
  split at read
  · obtain ⟨p, inner, same⟩ := Option.map_eq_some_iff.mp read
    cases same
    exact passes_string inner
  · next later =>
    refine (Passes.char (by decide) later).trans (passes_blanks ?_)
    split at read
    · next after blanks =>
      cases read
      rw [blanks]
      exact Passes.char (by decide) rest
    · obtain ⟨p, inner, same⟩ := Option.map_eq_some_iff.mp read
      cases same
      exact ih.items _ p.1 p.2 inner
  · next later =>
    refine (Passes.char (by decide) later).trans (passes_blanks ?_)
    split at read
    · next after blanks =>
      cases read
      rw [blanks]
      exact Passes.char (by decide) rest
    · obtain ⟨p, inner, same⟩ := Option.map_eq_some_iff.mp read
      cases same
      exact (ih.members _ p.1 p.2 inner).mono (DynValue.textsOfEntries_ofMembers p.1)
  · exact passes_scalar rt read

theorem passes_items (ih : ReadsThrough rt strict fuel) {chars rest : List Char}
    {items : List (DynValue F X)}
    (read : rt.readItems strict (fuel + 1) chars = some (items, rest)) :
    Passes chars rest (DynValue.textsOfItems items) := by
  unfold DynRuntime.readItems at read
  obtain ⟨⟨v, behind⟩, first, read⟩ := Option.bind_eq_some_iff.mp read
  have front := ih.value chars v behind first
  dsimp only at read
  split at read
  · next after blanks =>
    cases read
    refine front.trans (passes_blanks ?_)
    rw [blanks]
    exact Passes.char (by decide) rest
  · next after blanks =>
    obtain ⟨p, inner, same⟩ := Option.map_eq_some_iff.mp read
    cases same
    refine front.trans (passes_blanks ?_)
    rw [blanks]
    exact (Passes.char (by decide) after).trans (passes_blanks (ih.items _ p.1 p.2 inner))
  · cases read

theorem passes_members (ih : ReadsThrough rt strict fuel) {chars rest : List Char}
    {members : List (String × DynValue F X)}
    (read : rt.readMembers strict (fuel + 1) chars = some (members, rest)) :
    Passes chars rest (DynValue.textsOfMembers members) := by
  unfold DynRuntime.readMembers at read
  split at read
  · next later =>
    obtain ⟨⟨key, behindKey⟩, name, read⟩ := Option.bind_eq_some_iff.mp read
    have front := passes_string name
    dsimp only at read
    split at read
    · next value colon =>
      obtain ⟨⟨v, behind⟩, first, read⟩ := Option.bind_eq_some_iff.mp read
      have member : Passes ('\x22' :: later) behind (key :: v.texts) := by
        refine front.trans (passes_blanks ?_)
        rw [colon]
        exact (Passes.char (by decide) value).trans (passes_blanks (ih.value _ v behind first))
      dsimp only at read
      split at read
      · next after blanks =>
        cases read
        have closing : Passes behind rest [] := by
          refine passes_blanks ?_
          rw [blanks]
          exact Passes.char (by decide) rest
        simpa [DynValue.textsOfMembers] using member.trans closing
      · next after blanks =>
        obtain ⟨p, inner, same⟩ := Option.map_eq_some_iff.mp read
        cases same
        have others : Passes behind p.2 (DynValue.textsOfMembers p.1) := by
          refine passes_blanks ?_
          rw [blanks]
          exact (Passes.char (by decide) after).trans (passes_blanks (ih.members _ p.1 p.2 inner))
        simpa [DynValue.textsOfMembers] using member.trans others
      · cases read
    · cases read
  · cases read

theorem readsThrough (strict : Bool) (fuel : Nat) : ReadsThrough rt strict fuel := by
  induction fuel with
  | zero =>
      constructor <;>
        · intro _ _ _ read
          simp [DynRuntime.readValue, DynRuntime.readItems, DynRuntime.readMembers] at read
  | succ fuel ih =>
      constructor
      · exact fun _ _ _ => passes_value ih
      · exact fun _ _ _ => passes_items ih
      · exact fun _ _ _ => passes_members ih

/-- Every text of a value that was read is the decoding of a string literal. -/
theorem texts_of_loads {text : String} {v : DynValue F X}
    (read : rt.loads strict text = some v) {s : String} (member : s ∈ v.texts) :
    ∃ body ∈ literals text.toList, decodeLiteral body = some s := by
  unfold DynRuntime.loads at read
  split at read
  · cases read
  · split at read
    · next found =>
      split at read
      · next blank =>
        cases read
        have whole := (passes_blanks ((readsThrough strict _).value _ _ _ found)).trans
          (passes_skip _)
        rw [blank] at whole
        obtain ⟨passed, same, decoded⟩ := whole
        rw [literals, List.append_nil] at same
        rw [same]
        exact decoded s (List.mem_append_left _ member)
      · cases read
    · cases read

end JsonLiterals
