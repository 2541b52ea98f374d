import DuraLLM.Observability.Leaks

/-! # When log redaction is complete

Masked texts and previews are told apart: in a masked text no key is left, and a token
is left only where two matches meet; a preview is cut and nothing else.
-/

namespace DuraLLM

open String (ofList)

/-- How much of a text a preview keeps. -/
def previewLength (maxPromptPreviewChars : Int) (length : Nat) : Nat :=
  if maxPromptPreviewChars < length then
    (if maxPromptPreviewChars < 0 then maxPromptPreviewChars + length else maxPromptPreviewChars).toNat
  else length

section Previews

variable {lib : LogReaders} {maxPromptPreviewChars : Int} {text : List Char}

/-- What follows the kept part. -/
theorem exists_previewText_eq {α : Type} (maxPromptPreviewChars : Int) (carrier : Carrier α) (text : List α) :
    ∃ marker, (marker = [] ∨ marker = previewMarker.map carrier.ofChar) ∧
      previewText carrier maxPromptPreviewChars text =
        text.take (previewLength maxPromptPreviewChars text.length) ++ marker := by
  rw [previewText, previewLength]
  split
  · exact ⟨_, .inr rfl, rfl⟩
  · exact ⟨[], .inl rfl, by rw [List.take_length, List.append_nil]⟩

theorem not_hasSecret_previewMarker : ¬HasSecret previewMarker := by
  intro secret
  obtain ⟨i, starts⟩ := hasSecret_iff.mp secret
  have long := starts.length
  rw [List.length_drop, show previewMarker.length = 37 by decide] at long
  have none : ∀ i < 15, secretAt (previewMarker.drop i) = none := by decide
  exact secretAt_eq_none_iff.mp (none i (by omega)) starts

/-- A preview has a key when its kept part has one. -/
theorem hasSecret_previewText : HasSecret (previewText .plain maxPromptPreviewChars text) ↔
    HasSecret (text.take (previewLength maxPromptPreviewChars text.length)) := by
  obtain ⟨marker, rfl | rfl, same⟩ := exists_previewText_eq maxPromptPreviewChars .plain text
  · rw [same, List.append_nil]
  · rw [same, map_plain_ofChar, hasSecret_append (by rintro c ⟨⟩; decide)]
    exact or_iff_left not_hasSecret_previewMarker

/-- A preview shows a token when its kept part goes on where the token begins. -/
theorem tokensGone_previewed_iff : TokensGone lib maxPromptPreviewChars .previewed text ↔
    ∀ i kept length, bearerAt lib (text.drop i) = some (kept, length) →
      previewLength maxPromptPreviewChars text.length ≤ i + kept := by
  refine forall_congr' fun i => forall_congr' fun kept => forall_congr' fun length =>
    imp_congr_right fun found => ?_
  obtain ⟨front, w, before, t, after, back, between, -, rfl, start, rfl⟩ :=
    exists_between_of_bearerAt found
  rw [← Nat.add_assoc, start, tint_append]
  obtain ⟨marker, known, same⟩ := exists_previewText_eq maxPromptPreviewChars .tinted
    (before.map (·, false) ++ t.map (·, true) ++ after.map (·, false))
  have untinted : ∀ c, (c, true) ∉ marker := by
    rintro c member
    rcases known with rfl | rfl
    · cases member
    · obtain ⟨d, -, same⟩ := List.mem_map.mp member
      cases same
  have long : (before.map (·, false) ++ t.map (·, true) ++ after.map (·, false)).length =
      (before ++ t ++ after).length := by simp
  rw [Showing.apply, same, long]
  generalize previewLength maxPromptPreviewChars (before ++ t ++ after).length = k
  constructor
  · intro gone
    by_contra shorter
    obtain ⟨m, rfl⟩ := Nat.exists_eq_add_of_lt (not_le.mp shorter)
    obtain ⟨c, t, rfl⟩ := List.exists_cons_of_ne_nil between.token
    refine gone c (List.mem_append_left _ ?_)
    rw [List.append_assoc, List.take_append, List.length_map,
      show before.length + m + 1 - before.length = m + 1 by omega]
    exact List.mem_append_right _ List.mem_cons_self
  · intro short c member
    rcases List.mem_append.mp member with inside | behind
    · rw [List.append_assoc, List.take_append_of_le_length (by simpa using short)] at inside
      obtain ⟨d, -, same⟩ := List.mem_map.mp (List.mem_of_mem_take inside)
      cases same
    · exact untinted c behind

end Previews

section Values

variable (lib : LogReaders) (maxPromptPreviewChars : Int)

/-- No text of the redacted value has a key, nothing stands under a sensitive key, and
    the tokens of the texts are not shown. -/
structure Redacted (value : JsonRaw) : Prop where
  no_secret : ∀ text,
    JsonRaw.Within (.str text) (redactSensitiveData lib maxPromptPreviewChars value) →
      ¬HasSecret text.toList
  sensitive_redacted : ∀ members,
    JsonRaw.Within (.obj members) (redactSensitiveData lib maxPromptPreviewChars value) →
      ∀ key shown, (key, shown) ∈ members → isSensitiveKey lib key = true →
        shown = .str "[REDACTED]"
  tokens_gone : ∀ showing text, Shows lib value showing text →
    TokensGone lib maxPromptPreviewChars showing text.toList

/-- The kept part of a preview has no key, and ends where a token begins.  A masked text
    keeps `bearer` before its tokens. -/
def Maskable (showing : Showing) (text : List Char) : Prop :=
  match showing with
  | .masked => KeepsBearer lib (textWords lib.chars.space text)
  | .previewed =>
      ¬HasSecret (text.take (previewLength maxPromptPreviewChars text.length)) ∧
        ∀ i kept length, bearerAt lib (text.drop i) = some (kept, length) →
          previewLength maxPromptPreviewChars text.length ≤ i + kept

variable {lib maxPromptPreviewChars}

theorem maskable_iff {showing : Showing} {text : List Char} :
    Maskable lib maxPromptPreviewChars showing text ↔
      ¬HasSecret (showing.apply .plain lib maxPromptPreviewChars text) ∧
        TokensGone lib maxPromptPreviewChars showing text := by
  cases showing with
  | masked =>
      rw [Maskable, ← tokensGone_masked_iff maxPromptPreviewChars]
      exact (and_iff_right not_hasSecret_maskText).symm
  | previewed =>
      rw [Maskable, ← tokensGone_previewed_iff]
      exact and_congr_left' (not_congr hasSecret_previewText.symm)

theorem redacted_iff (lib : LogReaders) (maxPromptPreviewChars : Int) (value : JsonRaw) :
    Redacted lib maxPromptPreviewChars value ↔
      ∀ showing text, Shows lib value showing text →
        Maskable lib maxPromptPreviewChars showing text.toList := by
  constructor
  · intro redacted showing text shows
    have inside : JsonRaw.Within
        (.str (ofList (showing.apply .plain lib maxPromptPreviewChars text.toList)))
        (redactSensitiveData lib maxPromptPreviewChars value) := shows.within
    have none := redacted.no_secret _ inside
    rw [String.toList_ofList] at none
    exact maskable_iff.mpr ⟨none, redacted.tokens_gone showing text shows⟩
  · intro maskable
    refine ⟨fun shown inside => ?_, fun members inside key shown place hidden =>
      sensitive_redacted inside place hidden, fun showing text shows =>
      (maskable_iff.mp (maskable showing text shows)).2⟩
    rcases shows_of_within inside with rfl | ⟨showing, text, shows, rfl⟩
    · intro secret
      exact absurd secret.length (by decide)
    · rw [String.toList_ofList]
      exact (maskable_iff.mp (maskable showing text shows)).1

end Values

/-! ## What leaks -/

section Leaking

def LogReaders.ascii : LogReaders where
  chars := .ascii
  space_printable c low high :=
    ascii_cases (P := fun c => 0x20 < c.toNat → c.toNat < 0x7f → CharTable.ascii.space c = false)
      (by decide) (Nat.lt_succ_of_lt high) low high
  bearer_letters c letter d same := by
    have unlettered : ∀ c ∈ "bearer".toList, c.toLower = c :=
      List.forall_iff_forall_mem.mp (by decide)
    rcases Nat.lt_or_ge d.toNat 128 with ascii | large
    · have each := ascii_cases (P := fun d => "bearer".toList.Forall fun c =>
        CharTable.ascii.lower d = CharTable.ascii.lower c → d = c ∨ d = c.toUpper) (by decide) ascii
      exact List.forall_iff_forall_mem.mp each c letter same
    · have plain : d.toLower = c.toLower := same
      rw [toLower_of_not_ascii large, unlettered c letter] at plain
      exact .inl plain

/-- A key in a prompt, and a token behind a word that is taken for one. -/
theorem redaction_leaks :
    ¬Redacted .ascii 120 (.obj [("content", .str "key sk-abcdefghijklmnopqrstuvwx")]) ∧
      ¬Redacted .ascii 120 (.str "bearer bearer abc") := by
  constructor
  · intro redacted
    have shows : Shows .ascii (.obj [("content", .str "key sk-abcdefghijklmnopqrstuvwx")]) .previewed
        "key sk-abcdefghijklmnopqrstuvwx" :=
      .prompt List.mem_cons_self (by decide +kernel) (by decide)
    have none := redacted.no_secret _ shows.within
    rw [String.toList_ofList] at none
    exact none ⟨4, by decide +kernel⟩
  · intro redacted
    have gone := redacted.tokens_gone .masked "bearer bearer abc" .text 7 7 10 (by decide +kernel) 'a'
    exact gone (by decide +kernel)

end Leaking

end DuraLLM
