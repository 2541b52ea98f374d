import DuraLLM.Observability.BearerTokens
import DuraLLM.Observability.ShownTexts

/-! # What redaction leaves of a token

The characters of one token are tinted, and the text is shown with its tints.  A
masked text shows no tinted character when the word before the token still ends with
`bearer` after the first substitution, and is not itself taken for a token.
-/

namespace DuraLLM

/-- Characters with a tint. -/
def Carrier.tinted : Carrier (Char × Bool) where
  char := Prod.fst
  ofChar c := (c, false)
  char_ofChar _ := rfl

/-- The text with the characters from `start` to `stop` tinted. -/
def tint (start stop : Nat) (text : List Char) : List (Char × Bool) :=
  (text.take start).map (·, false) ++ ((text.take stop).drop start).map (·, true) ++
    (text.drop stop).map (·, false)

/-- No character of a token behind `bearer` is shown. -/
def TokensGone (lib : LogReaders) (maxPromptPreviewChars : Int) (showing : Showing)
    (text : List Char) : Prop :=
  ∀ i kept length, bearerAt lib (text.drop i) = some (kept, length) →
    ∀ c, (c, true) ∉ showing.apply .tinted lib maxPromptPreviewChars (tint (i + kept) (i + length) text)

/-- What is shown does not depend on the tints. -/
theorem Showing.apply_map {showing : Showing} {α : Type} {carrier : Carrier α} {lib : LogReaders}
    {maxPromptPreviewChars : Int} {text : List α} :
    (showing.apply carrier lib maxPromptPreviewChars text).map carrier.char =
      showing.apply .plain lib maxPromptPreviewChars (text.map carrier.char) := by
  cases showing with
  | masked =>
      rw [Showing.apply, Showing.apply, maskText, maskText, ← maskSecrets_map]
      exact substitute_plain carrier
  | previewed =>
      have marker : (previewMarker.map carrier.ofChar).map carrier.char =
          previewMarker.map Carrier.plain.ofChar := by
        rw [List.map_map]
        exact List.map_congr_left fun c _ => carrier.char_ofChar c
      simp only [Showing.apply, previewText, sliceTo, List.length_map]
      split
      · rw [List.map_append, List.map_take, marker]
      · rfl

theorem tint_chars {start stop : Nat} {text : List Char} (order : start ≤ stop) :
    (tint start stop text).map Carrier.tinted.char = text := by
  have chars : ∀ (tinted : Bool) (part : List Char),
      (part.map (·, tinted)).map Carrier.tinted.char = part := by
    intro tinted part
    simp [Carrier.tinted, Function.comp_def]
  rw [tint, List.map_append, List.map_append, chars, chars, chars]
  have front : (text.take stop).take start = text.take start := by
    rw [List.take_take, Nat.min_eq_left order]
  rw [← front, List.take_append_drop, List.take_append_drop]

/-- The tinted text is in the redacted value. -/
theorem Shows.within_tint {lib : LogReaders} {maxPromptPreviewChars : Int} {value : JsonRaw}
    {showing : Showing} {text : String} (shows : Shows lib value showing text) {start stop : Nat}
    (order : start ≤ stop) :
    JsonRaw.Within
      (.str (String.ofList ((showing.apply .tinted lib maxPromptPreviewChars
        (tint start stop text.toList)).map Carrier.tinted.char)))
      (redactSensitiveData lib maxPromptPreviewChars value) := by
  rw [Showing.apply_map, tint_chars order]
  exact shows.within

section Words

variable (lib : LogReaders)

/-- The word behind these is replaced as a token. -/
def TakesNext (words : List (List Char)) : Prop :=
  hitAfter .plain lib false (words.map (maskSecrets .plain)) = true

/-- A word before a token still ends with `bearer`, and is not taken as a token. -/
def KeepsBearer (words : List (List Char)) : Prop :=
  ∀ front w t back, words = front ++ w :: t :: back → endsBearer lib w = true → ¬IsSecret t →
    ¬EndsSecret w ∧ ∀ u ∈ front.getLast?, endsBearer lib u = true → EndsSecret u

variable {lib} {words front back : List (List Char)} {u w t : List Char}

theorem takesNext_concat :
    TakesNext lib (front ++ [w]) ↔ ¬TakesNext lib front ∧ endsBearer lib w = true ∧ ¬EndsSecret w := by
  rw [TakesNext, TakesNext, List.map_append, hitAfter_append, List.map_singleton]
  cases hit : hitAfter .plain lib false (front.map (maskSecrets .plain)) with
  | true => simp [hitAfter]
  | false => simpa [hitAfter] using endsBearer_maskSecrets lib

/-- Every token is replaced when that can be told from the word before it and the one
    before that. -/
theorem keepsBearer_iff : KeepsBearer lib words ↔
    ∀ front w t back, words = front ++ w :: t :: back → endsBearer lib w = true →
      TakesNext lib (front ++ [w]) ∨ IsSecret t := by
  constructor
  · intro keeps front w t back same ends
    by_cases secret : IsSecret t
    · exact .inr secret
    · obtain ⟨free, apart⟩ := keeps front w t back same ends secret
      refine .inl (takesNext_concat.mpr ⟨?_, ends, free⟩)
      rcases List.eq_nil_or_concat' front with rfl | ⟨front, u, rfl⟩
      · simp [TakesNext, hitAfter]
      · intro taken
        obtain ⟨-, ends', free'⟩ := takesNext_concat.mp taken
        exact free' (apart u (by simp) ends')
  · intro taken front w t back same ends plain
    have takes := (taken front w t back same ends).resolve_right plain
    obtain ⟨fresh, -, free⟩ := takesNext_concat.mp takes
    refine ⟨free, fun u last ends' => ?_⟩
    by_contra free'
    obtain ⟨front, rfl⟩ : ∃ front', front = front' ++ [u] := List.getLast?_eq_some_iff.mp last
    -- `u` takes `w` unless `u` is itself taken, and then its own token is not replaced
    have notSecret : ¬IsSecret w := fun secret => free ⟨w, List.suffix_refl w, secret⟩
    have earlier := taken front u w (t :: back) (by rw [same, List.append_assoc]; rfl) ends'
    exact fresh (earlier.resolve_right notSecret)

end Words

section Masked

variable {lib : LogReaders} {words back : List (List Char)} {t before after : List Char}

/-- The tints do not decide what is a token. -/
theorem hitAfter_map {α : Type} {carrier : Carrier α} {hit : Bool} {words : List (List α)} :
    hitAfter .plain lib hit (words.map (·.map carrier.char)) = hitAfter carrier lib hit words := by
  induction words generalizing hit with
  | nil => rfl
  | cons w words ih =>
      cases hit with
      | true => exact ih
      | false =>
          rw [List.map_cons, hitAfter, hitAfter, map_plain_char]
          exact ih

theorem not_mem_secretMarker {c : Char} : (c, true) ∉ secretMarker.map Carrier.tinted.ofChar := by
  intro member
  obtain ⟨d, -, same⟩ := List.mem_map.mp member
  cases same

/-- What is not tinted is not shown tinted. -/
theorem untinted_maskSecrets {w : List Char} {c : Char} :
    (c, true) ∉ maskSecrets .tinted (w.map (·, false)) := by
  intro member
  rcases mem_substitute member with inside | marker
  · obtain ⟨d, -, same⟩ := List.mem_map.mp inside
    cases same
  · exact not_mem_secretMarker marker

/-- Of a tinted word something is shown by the first substitution, if it is not a key. -/
theorem tinted_maskSecrets (token : t ≠ []) :
    (∃ c, (c, true) ∈ maskSecrets .tinted (t.map (·, true))) ↔ ¬IsSecret t := by
  have chars : (t.map (·, true)).map Carrier.tinted.char = t := by
    simp [Carrier.tinted, Function.comp_def]
  constructor
  · rintro ⟨c, member⟩ secret
    rw [maskSecrets_isSecret .tinted (by rwa [chars])] at member
    exact not_mem_secretMarker member
  · intro other
    have nonempty : t.map (·, true) ≠ [] := by simpa using token
    obtain ⟨x, inside, left⟩ := exists_mem_maskSecrets .tinted nonempty (by rwa [chars])
    obtain ⟨c, -, rfl⟩ := List.mem_map.mp inside
    exact ⟨c, left⟩

/-- A word between two texts. -/
structure Between (lib : LogReaders) (words : List (List Char)) (before t after : List Char)
    (back : List (List Char)) : Prop where
  left : Worded lib.chars.space before words
  ends : ∀ c ∈ before.getLast?, lib.chars.space c = true
  token : t ≠ []
  solid : ∀ c ∈ t, lib.chars.space c = false
  apart : ∀ c ∈ after.head?, lib.chars.space c = true
  right : Worded lib.chars.space after back

theorem Between.worded (between : Between lib words before t after back) :
    Worded lib.chars.space (before ++ t ++ after) (words ++ t :: back) := by
  rw [List.append_assoc]
  exact between.left.append_of_last between.ends
    (.word between.token between.solid between.apart between.right)

theorem tint_append : tint before.length (before.length + t.length) (before ++ t ++ after) =
    before.map (·, false) ++ t.map (·, true) ++ after.map (·, false) := by
  have front : (before ++ t ++ after).take before.length = before := by
    rw [List.append_assoc, List.take_left]
  have whole : (before ++ t ++ after).take (before.length + t.length) = before ++ t := by
    rw [← List.length_append, List.take_left]
  have rest : (before ++ t ++ after).drop (before.length + t.length) = after := by
    rw [← List.length_append, List.drop_left]
  rw [tint, front, whole, rest, List.drop_left]

/-- A token is masked when the words before it take it, or it is a key. -/
theorem masked_token_iff (between : Between lib words before t after back) :
    (∀ c, (c, true) ∉ maskText .tinted lib
        (before.map (·, false) ++ t.map (·, true) ++ after.map (·, false))) ↔
      TakesNext lib words ∨ IsSecret t := by
  obtain ⟨left, ends, token, solid, apart, right⟩ := between
  have left' : Worded (Carrier.tinted.blank lib) (before.map (·, false))
      (words.map (·.map (·, false))) := left.map fun _ => rfl
  have right' : Worded (Carrier.tinted.blank lib) (after.map (·, false))
      (back.map (·.map (·, false))) := right.map fun _ => rfl
  have worded : Worded (Carrier.tinted.blank lib)
      (before.map (·, false) ++ t.map (·, true) ++ after.map (·, false))
      (words.map (·.map (·, false)) ++ t.map (·, true) :: back.map (·.map (·, false))) := by
    rw [List.append_assoc]
    refine left'.append_of_last (fun c last => ?_)
      (.word (by simpa using token) (fun c member => ?_) (fun c first => ?_) right')
    · rw [List.getLast?_map] at last
      obtain ⟨d, here, rfl⟩ := Option.map_eq_some_iff.mp last
      exact ends d here
    · obtain ⟨d, inside, rfl⟩ := List.mem_map.mp member
      exact solid d inside
    · rw [List.head?_map] at first
      obtain ⟨d, here, rfl⟩ := Option.map_eq_some_iff.mp first
      exact apart d here
  have masked := worded_maskBearers (worded_maskSecrets worded)
  rw [List.map_append, List.map_cons, relay_append] at masked
  have hit : hitAfter .tinted lib false
      ((words.map (·.map (·, false))).map (maskSecrets .tinted)) = true ↔ TakesNext lib words := by
    rw [← hitAfter_map, TakesNext]
    have same : (((words.map (·.map (·, false))).map (maskSecrets .tinted)).map
        (·.map Carrier.tinted.char)) = words.map (maskSecrets .plain) := by
      rw [List.map_map, List.map_map]
      refine List.map_congr_left fun w _ => ?_
      have chars : (w.map (·, false)).map Carrier.tinted.char = w := by
        simp [Carrier.tinted, Function.comp_def]
      simp only [Function.comp_apply, maskSecrets_map, chars]
    rw [same]
  -- only the token has tinted characters, and they are no blanks
  have untinted : ∀ (hit : Bool) (ws : List (List Char)) (v : List (Char × Bool)),
      v ∈ relay .tinted lib hit ((ws.map (·.map (·, false))).map (maskSecrets .tinted)) →
      ∀ c, (c, true) ∉ v := by
    intro hit ws v place c member
    rcases mem_relay place with rfl | place
    · exact not_mem_secretMarker member
    · obtain ⟨_, inner, rfl⟩ := List.mem_map.mp place
      obtain ⟨w, -, rfl⟩ := List.mem_map.mp inner
      exact untinted_maskSecrets member
  have plain : ∀ c, (c, true) ∈ maskText .tinted lib
      (before.map (·, false) ++ t.map (·, true) ++ after.map (·, false)) →
      Carrier.tinted.blank lib (c, true) = false := by
    intro c member
    rcases mem_substitute member with member | marker
    · rcases mem_substitute member with inside | marker
      · have tinted : c ∈ t := by simpa using inside
        exact solid c tinted
      · exact absurd marker not_mem_secretMarker
    · exact absurd marker not_mem_secretMarker
  constructor
  · intro none
    by_contra left
    rw [not_or] at left
    obtain ⟨fresh, other⟩ := left
    obtain ⟨c, shown⟩ := (tinted_maskSecrets token).mpr other
    have place : maskSecrets .tinted (t.map (·, true)) ∈ relay .tinted lib false
          ((words.map (·.map (·, false))).map (maskSecrets .tinted)) ++
        relay .tinted lib (hitAfter .tinted lib false
            ((words.map (·.map (·, false))).map (maskSecrets .tinted)))
          (maskSecrets .tinted (t.map (·, true)) ::
            (back.map (·.map (·, false))).map (maskSecrets .tinted)) := by
      rw [Bool.eq_false_of_not_eq_true (fun taken => fresh (hit.mp taken)), relay]
      exact List.mem_append_right _ List.mem_cons_self
    exact none c ((masked.mem place).2 _ shown).1
  · intro gone c member
    obtain ⟨v, place, inside⟩ := masked.exists_word member (plain c member)
    rcases List.mem_append.mp place with early | late
    · exact untinted false words v early c inside
    · cases taken : hitAfter .tinted lib false
          ((words.map (·.map (·, false))).map (maskSecrets .tinted)) with
      | true =>
          rw [taken, relay] at late
          rcases List.mem_cons.mp late with rfl | later
          · exact not_mem_secretMarker inside
          · exact untinted false back v later c inside
      | false =>
          rw [taken, relay] at late
          rcases List.mem_cons.mp late with rfl | later
          · have secret := gone.resolve_left fun takes => by
              rw [hit.mpr takes] at taken
              cases taken
            exact (tinted_maskSecrets token).mp ⟨c, inside⟩ secret
          · exact untinted _ back v later c inside

/-! ### Where the tokens are -/

variable {text : List Char}

/-- A match of the pattern, and the words of the text. -/
theorem exists_between_of_bearerAt {i kept length : Nat}
    (found : bearerAt lib (text.drop i) = some (kept, length)) :
    ∃ front w before t after back, Between lib (front ++ [w]) before t after back ∧
      endsBearer lib w = true ∧ text = before ++ t ++ after ∧ i + kept = before.length ∧
      length = kept + t.length := by
  obtain ⟨x, g, t, after, split, bearer, gapped, blanks, token, solid, apart, rfl, rfl⟩ :=
    bearerAt_eq_some lib found
  obtain ⟨six, chars⟩ := isBearer_chars lib bearer
  obtain ⟨words, worded⟩ := @exists_worded Char lib.chars.space (text.take i ++ x)
  have nonempty : x ≠ [] := by
    rintro rfl
    cases six
  obtain ⟨front, w, rfl, ends⟩ := worded.last nonempty fun c member => (chars c member).2
  obtain ⟨back, right⟩ := @exists_worded Char lib.chars.space after
  have inside : i < text.length := by
    by_contra behind
    rw [List.drop_eq_nil_of_le (not_lt.mp behind)] at split
    simp [nonempty] at split
  have first : ∀ c ∈ g.head?, lib.chars.space c = true :=
    fun c first => blanks c (List.mem_of_mem_head? first)
  have gap : Worded lib.chars.space (g ++ []) [] := .blanks blanks .nil
  rw [List.append_nil] at gap
  have left := worded.append first gap
  rw [List.append_nil] at left
  refine ⟨front, w, text.take i ++ x ++ g, t, after, back, ⟨left, fun c last => ?_, token, solid,
    apart, right⟩, (endsBearer_iff lib).mpr ⟨x, ends, bearer⟩, ?_, ?_, rfl⟩
  · rw [List.getLast?_append_of_ne_nil _ gapped] at last
    exact blanks c (List.mem_of_getLast? last)
  · simp only [List.append_assoc, ← split, List.take_append_drop]
  · simp only [List.length_append, List.length_take]
    omega

theorem exists_bearerAt_of_words {front back : List (List Char)} {w : List Char}
    (worded : Worded lib.chars.space text (front ++ w :: t :: back))
    (ends : endsBearer lib w = true) :
    ∃ before after i kept length, Between lib (front ++ [w]) before t after back ∧
      bearerAt lib (text.drop i) = some (kept, length) ∧ text = before ++ t ++ after ∧
      i + kept = before.length ∧ length = kept + t.length := by
  rw [show front ++ w :: t :: back = (front ++ [w]) ++ t :: back by simp] at worded
  obtain ⟨before, after, rfl, left, right, solid, token, apart, last⟩ := worded.cut
  have between : Between lib (front ++ [w]) before t after back :=
    ⟨left, last, token, solid, apart, right⟩
  obtain ⟨start, gap, rfl, -, blanks, solid', word, -, -⟩ := left.cut
  replace blanks := blanks.blank_of_nil
  have gapped : gap ≠ [] := by
    rintro rfl
    rw [List.append_nil, List.getLast?_append_of_ne_nil _ word] at last
    have blank := last _ (List.getLast?_eq_some_getLast word)
    rw [solid' _ (List.getLast_mem word)] at blank
    cases blank
  -- the match begins at the last six characters of the word
  obtain ⟨p, x, rfl, bearer⟩ : ∃ p x, w = p ++ x ∧ isBearer lib x = true :=
    ⟨_, _, (List.take_append_drop _ _).symm, ends⟩
  have six := (isBearer_chars lib bearer).1
  have place : (start ++ (p ++ x) ++ gap ++ t ++ after).drop (start ++ p).length =
      x ++ (gap ++ (t ++ after)) := by
    rw [show start ++ (p ++ x) ++ gap ++ t ++ after = (start ++ p) ++ (x ++ (gap ++ (t ++ after))) by
      simp only [List.append_assoc], List.drop_left]
  have found := bearerAt_bearer lib bearer gapped blanks token solid apart
  rw [← place] at found
  refine ⟨_, after, (start ++ p).length, _, _, between, found, rfl, ?_, rfl⟩
  simp only [List.length_append]
  omega

/-- A masked text shows no token exactly when its words keep `bearer`. -/
theorem tokensGone_masked_iff (maxPromptPreviewChars : Int) :
    TokensGone lib maxPromptPreviewChars .masked text ↔
      KeepsBearer lib (textWords lib.chars.space text) := by
  rw [keepsBearer_iff]
  constructor
  · intro gone front w t back same ends
    obtain ⟨before, after, i, kept, length, between, found, rfl, start, rfl⟩ :=
      exists_bearerAt_of_words (worded_iff.mpr same) ends
    have none := gone i kept _ found
    rw [← Nat.add_assoc, start, tint_append] at none
    exact (masked_token_iff between).mp none
  · intro taken i kept length found
    obtain ⟨front, w, before, t, after, back, between, ends, rfl, start, rfl⟩ :=
      exists_between_of_bearerAt found
    have same := between.worded.textWords_eq
    rw [List.append_assoc front] at same
    rw [← Nat.add_assoc, start, tint_append]
    exact (masked_token_iff between).mpr (taken front w t back same ends)

end Masked

end DuraLLM
