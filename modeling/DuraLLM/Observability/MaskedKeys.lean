import Mathlib.Data.List.TakeWhile
import DuraLLM.Observability.Redaction

/-! # Masked API keys

A key is as long as the characters of keys go on, so it is told by where it begins.
What the first substitution leaves has no key in it, and a text in front of another
character is masked on its own.
-/

namespace DuraLLM

/-- A key begins here. -/
def StartsSecret (text : List Char) : Prop :=
  ∃ start ∈ secretPrefixes, start.1 <+: text ∧
    start.1.length + start.2 ≤ (text.takeWhile isKeyChar).length

/-- The text as a whole is a key. -/
def IsSecret (text : List Char) : Prop := secretAt text = some (0, text.length)

def EndsSecret (text : List Char) : Prop := ∃ key, key <:+ text ∧ IsSecret key

/-- A match of `SECRET_VALUE_PATTERN`, anywhere in the text. -/
def HasSecret (text : List Char) : Prop := ∃ i, (secretAt (text.drop i)).isSome = true

section Chars

variable {x y text : List Char}

theorem takeWhile_stop {p : Char → Bool} (stops : ∀ c ∈ y.head?, p c = false) :
    (x ++ y).takeWhile p = x.takeWhile p := by
  induction x with
  | nil =>
      cases y with
      | nil => rfl
      | cons c y => exact List.takeWhile_cons_of_neg (by simp [stops c rfl])
  | cons c x ih =>
      rw [List.cons_append, List.takeWhile_cons, List.takeWhile_cons, ih]

theorem takeWhile_all {p : Char → Bool} (all : ∀ c ∈ x, p c = true) :
    (x ++ y).takeWhile p = x ++ y.takeWhile p := by
  induction x with
  | nil => rfl
  | cons c x ih =>
      obtain ⟨here, all⟩ := List.forall_mem_cons.mp all
      rw [List.cons_append, List.takeWhile_cons_of_pos here, ih all, List.cons_append]

/-- Behind the longest front there is another character. -/
theorem stops_behind_takeWhile (p : Char → Bool) (x : List Char) :
    ∀ c ∈ (x.drop (x.takeWhile p).length).head?, p c = false := by
  induction x with
  | nil => simp
  | cons c x ih =>
      cases here : p c with
      | true =>
          rw [List.takeWhile_cons, here]
          simpa using ih
      | false =>
          rw [List.takeWhile_cons, here]
          simpa using here

theorem secretPrefixes_chars : ∀ start ∈ secretPrefixes, ∀ c ∈ start.1, isKeyChar c = true := by
  simp only [← List.forall_iff_forall_mem]
  decide

theorem secretAt_eq_some_iff {kept length : Nat} :
    secretAt text = some (kept, length) ↔
      StartsSecret text ∧ kept = 0 ∧ length = (text.takeWhile isKeyChar).length := by
  have entry : ∀ start ∈ secretPrefixes,
      (start.1.isPrefixOf text && start.2 ≤ ((text.drop start.1.length).takeWhile isKeyChar).length)
          = true →
        start.1 <+: text ∧ start.1.length + start.2 ≤ (text.takeWhile isKeyChar).length ∧
          start.1.length + ((text.drop start.1.length).takeWhile isKeyChar).length =
            (text.takeWhile isKeyChar).length := by
    intro start known found
    rw [Bool.and_eq_true, List.isPrefixOf_iff_prefix, decide_eq_true_eq] at found
    obtain ⟨⟨rest, rfl⟩, long⟩ := found
    rw [List.drop_left] at long ⊢
    rw [takeWhile_all (secretPrefixes_chars start known), List.length_append]
    exact ⟨⟨rest, rfl⟩, by omega, rfl⟩
  have back : ∀ start ∈ secretPrefixes, start.1 <+: text →
      start.1.length + start.2 ≤ (text.takeWhile isKeyChar).length →
      (start.1.isPrefixOf text && start.2 ≤ ((text.drop start.1.length).takeWhile isKeyChar).length)
          = true := by
    intro start known front long
    rw [Bool.and_eq_true, List.isPrefixOf_iff_prefix, decide_eq_true_eq]
    obtain ⟨rest, rfl⟩ := front
    rw [takeWhile_all (secretPrefixes_chars start known), List.length_append] at long
    rw [List.drop_left]
    exact ⟨⟨rest, rfl⟩, by omega⟩
  constructor
  · intro found
    obtain ⟨start, known, one⟩ := List.exists_of_findSome?_eq_some found
    dsimp only at one
    split at one
    · next matched =>
      obtain ⟨front, long, total⟩ := entry start known matched
      cases one
      exact ⟨⟨start, known, front, long⟩, rfl, total⟩
    · cases one
  · rintro ⟨⟨start, known, front, long⟩, rfl, rfl⟩
    cases found : secretAt text with
    | none =>
        have missed := List.findSome?_eq_none_iff.mp found start known
        dsimp only at missed
        rw [if_pos (back start known front long)] at missed
        cases missed
    | some hit =>
        obtain ⟨other, known', one⟩ := List.exists_of_findSome?_eq_some found
        dsimp only at one
        split at one
        · next matched =>
          rw [← (entry other known' matched).2.2]
          exact one.symm
        · cases one

theorem secretAt_eq_none_iff : secretAt text = none ↔ ¬StartsSecret text := by
  constructor
  · intro none starts
    have found := secretAt_eq_some_iff.mpr ⟨starts, rfl, rfl⟩
    rw [none] at found
    cases found
  · intro other
    cases found : secretAt text with
    | none => rfl
    | some hit => exact absurd (secretAt_eq_some_iff.mp found).1 other

theorem hasSecret_iff : HasSecret text ↔ ∃ i, StartsSecret (text.drop i) := by
  refine exists_congr fun i => ?_
  rw [Option.isSome_iff_ne_none, Ne, secretAt_eq_none_iff, not_not]

theorem isSecret_iff : IsSecret text ↔ StartsSecret text ∧ ∀ c ∈ text, isKeyChar c = true := by
  rw [IsSecret, secretAt_eq_some_iff]
  have full : text.length = (text.takeWhile isKeyChar).length ↔ ∀ c ∈ text, isKeyChar c = true := by
    rw [← List.takeWhile_eq_self_iff]
    constructor
    · intro same
      exact (List.takeWhile_prefix _).eq_of_length same.symm
    · intro same
      rw [same]
  simp only [true_and, full]

/-- The characters of keys decide. -/
theorem StartsSecret.mono (starts : StartsSecret x) (front : x.takeWhile isKeyChar <+: y) :
    StartsSecret y := by
  obtain ⟨start, known, ⟨rest, rfl⟩, long⟩ := starts
  rw [takeWhile_all (secretPrefixes_chars start known)] at front long
  obtain ⟨later, rfl⟩ := front
  have run : ∀ c ∈ start.1 ++ rest.takeWhile isKeyChar, isKeyChar c = true := by
    refine List.forall_mem_append.mpr ⟨secretPrefixes_chars start known, fun c member => ?_⟩
    exact List.mem_takeWhile_imp member
  refine ⟨start, known, ⟨rest.takeWhile isKeyChar ++ later, by rw [List.append_assoc]⟩, ?_⟩
  rw [takeWhile_all run, List.length_append]
  omega

/-- A text in front of another character. -/
theorem startsSecret_append (stops : ∀ c ∈ y.head?, isKeyChar c = false) :
    StartsSecret (x ++ y) ↔ StartsSecret x := by
  constructor
  · intro starts
    refine starts.mono ?_
    rw [takeWhile_stop stops]
    exact List.takeWhile_prefix _
  · intro starts
    exact starts.mono ((List.takeWhile_prefix _).trans (List.prefix_append x y))

theorem StartsSecret.length (starts : StartsSecret text) : 23 ≤ text.length := by
  obtain ⟨start, known, -, long⟩ := starts
  have least : ∀ start ∈ secretPrefixes, 23 ≤ start.1.length + start.2 := by decide
  have short := (List.takeWhile_sublist isKeyChar (l := text)).length_le
  exact (least start known).trans (long.trans short)

theorem not_startsSecret (stops : ∀ c ∈ text.head?, isKeyChar c = false) : ¬StartsSecret text := by
  intro starts
  have none := ((startsSecret_append (x := []) stops).mp starts).length
  simp at none

theorem HasSecret.length (secret : HasSecret text) : 23 ≤ text.length := by
  obtain ⟨i, starts⟩ := hasSecret_iff.mp secret
  have long := starts.length
  rw [List.length_drop] at long
  omega

/-- A key is on one side of another character. -/
theorem hasSecret_append (stops : ∀ c ∈ y.head?, isKeyChar c = false) :
    HasSecret (x ++ y) ↔ HasSecret x ∨ HasSecret y := by
  simp only [hasSecret_iff]
  constructor
  · rintro ⟨i, starts⟩
    rcases Nat.le_total i x.length with inside | behind
    · rw [List.drop_append_of_le_length inside, startsSecret_append stops] at starts
      exact .inl ⟨i, starts⟩
    · obtain ⟨j, rfl⟩ := Nat.exists_eq_add_of_le behind
      rw [List.drop_length_add_append] at starts
      exact .inr ⟨j, starts⟩
  · rintro (⟨i, starts⟩ | ⟨j, starts⟩)
    · rcases Nat.le_total i x.length with inside | behind
      · refine ⟨i, ?_⟩
        rwa [List.drop_append_of_le_length inside, startsSecret_append stops]
      · rw [List.drop_eq_nil_of_le behind] at starts
        exact absurd starts (not_startsSecret (by simp))
    · refine ⟨x.length + j, ?_⟩
      rwa [List.drop_length_add_append]

theorem secretMarker_split : secretMarker = "[REDACTED_API_KEY".toList ++ [']'] := by decide

/-- No key begins in the marker. -/
theorem not_startsSecret_marker {i : Nat} (inside : i < secretMarker.length) :
    ¬StartsSecret (secretMarker.drop i ++ text) := by
  have short : i ≤ "[REDACTED_API_KEY".toList.length := Nat.le_of_lt_succ inside
  rw [secretMarker_split, List.drop_append_of_le_length short, List.append_assoc,
    startsSecret_append (by rintro c ⟨⟩; decide)]
  intro starts
  have long := starts.length
  have few : ("[REDACTED_API_KEY".toList.drop i).length ≤ 17 := by
    rw [List.length_drop]
    exact Nat.sub_le _ _
  omega

end Chars

/-! ## The first substitution -/

section Masking

variable {α : Type} (carrier : Carrier α) {text : List α}

/-- What is replaced does not depend on what the characters carry. -/
theorem substitute_plain {matchAt : List Char → Option (Nat × Nat)} {marker : List Char} :
    (substitute (fun text => matchAt (text.map carrier.char)) (marker.map carrier.ofChar) 0 text).map
        carrier.char =
      substitute (fun text => matchAt (text.map Carrier.plain.char))
        (marker.map Carrier.plain.ofChar) 0 (text.map carrier.char) := by
  have same : (marker.map carrier.ofChar).map carrier.char = marker.map Carrier.plain.ofChar := by
    rw [List.map_map]
    exact List.map_congr_left fun c _ => carrier.char_ofChar c
  rw [← same]
  exact substitute_map (fun text => by simp [Carrier.plain]) 0 text

theorem maskSecrets_map : (maskSecrets carrier text).map carrier.char =
    maskSecrets .plain (text.map carrier.char) := substitute_plain carrier

theorem maskSecrets_starts (starts : StartsSecret (text.map carrier.char)) :
    maskSecrets carrier text = secretMarker.map carrier.ofChar ++
      maskSecrets carrier (text.drop ((text.map carrier.char).takeWhile isKeyChar).length) := by
  have found : (fun text => secretAt (text.map carrier.char)) text =
      some (0, ((text.map carrier.char).takeWhile isKeyChar).length) :=
    secretAt_eq_some_iff.mpr ⟨starts, rfl, rfl⟩
  have nonempty : text ≠ [] := by
    rintro rfl
    have long := starts.length
    simp at long
  obtain ⟨start, known, -, long⟩ := starts
  have positive : ∀ start ∈ secretPrefixes, 0 < start.1.length := by decide
  have one := positive start known
  exact @substitute_match α _ (secretMarker.map carrier.ofChar) text 0 _ found nonempty (by omega)

theorem maskSecrets_cons {c : α} (other : ¬StartsSecret ((c :: text).map carrier.char)) :
    maskSecrets carrier (c :: text) = c :: maskSecrets carrier text :=
  substitute_none (secretAt_eq_none_iff.mpr other)

theorem secretMarker_ne_nil : secretMarker.map carrier.ofChar ≠ [] := by
  intro none
  have nothing := List.map_eq_nil_iff.mp none
  cases nothing

theorem maskSecrets_ne_nil (some : text ≠ []) : maskSecrets carrier text ≠ [] := by
  obtain ⟨c, rest, rfl⟩ := List.exists_cons_of_ne_nil some
  by_cases starts : StartsSecret ((c :: rest).map carrier.char)
  · rw [maskSecrets_starts carrier starts]
    exact List.append_ne_nil_of_left_ne_nil (secretMarker_ne_nil carrier) _
  · rw [maskSecrets_cons carrier starts]
    exact List.cons_ne_nil _ _

/-- A text in front of another character is masked on its own. -/
theorem maskSecrets_append {rest : List α}
    (stops : ∀ c ∈ rest.head?, isKeyChar (carrier.char c) = false) :
    maskSecrets carrier (text ++ rest) = maskSecrets carrier text ++ maskSecrets carrier rest := by
  have stops' : ∀ c ∈ (rest.map carrier.char).head?, isKeyChar c = false := by
    intro c first
    rw [List.head?_map] at first
    obtain ⟨d, here, rfl⟩ := Option.map_eq_some_iff.mp first
    exact stops d here
  induction long : text.length using Nat.strong_induction_on generalizing text with
  | _ n ih =>
    cases text with
    | nil => simp [maskSecrets]
    | cons c text =>
        by_cases starts : StartsSecret ((c :: text).map carrier.char)
        · have starts' : StartsSecret ((c :: text ++ rest).map carrier.char) := by
            rw [List.map_append]
            exact (startsSecret_append stops').mpr starts
          have inside : (((c :: text).map carrier.char).takeWhile isKeyChar).length ≤
              (c :: text).length := by
            have same : ((c :: text).map carrier.char).length = (c :: text).length := List.length_map _
            rw [← same]
            exact (List.takeWhile_sublist _).length_le
          have positive : 23 ≤ (((c :: text).map carrier.char).takeWhile isKeyChar).length := by
            obtain ⟨start, known, -, run⟩ := starts
            have least : ∀ start ∈ secretPrefixes, 23 ≤ start.1.length + start.2 := by decide
            exact (least start known).trans run
          rw [maskSecrets_starts carrier starts', maskSecrets_starts carrier starts,
            List.map_append, takeWhile_stop stops', List.drop_append_of_le_length inside,
            ih _ ?_ rfl, List.append_assoc]
          rw [← long, List.length_drop]
          omega
        · have other : ¬StartsSecret ((c :: (text ++ rest)).map carrier.char) := by
            rw [← List.cons_append, List.map_append]
            exact fun starts' => starts ((startsSecret_append stops').mp starts')
          rw [List.cons_append, maskSecrets_cons carrier other, maskSecrets_cons carrier starts,
            ih text.length (by simp [← long]) rfl, List.cons_append]

/-- A key as a whole is replaced. -/
theorem maskSecrets_isSecret (secret : IsSecret (text.map carrier.char)) :
    maskSecrets carrier text = secretMarker.map carrier.ofChar := by
  obtain ⟨starts, all⟩ := isSecret_iff.mp secret
  rw [maskSecrets_starts carrier starts, List.takeWhile_eq_self_iff.mpr all, List.length_map,
    List.drop_length]
  exact List.append_nil _

/-- Of any other word something is left. -/
theorem exists_mem_maskSecrets (some : text ≠ []) (other : ¬IsSecret (text.map carrier.char)) :
    ∃ x ∈ text, x ∈ maskSecrets carrier text := by
  obtain ⟨c, rest, rfl⟩ := List.exists_cons_of_ne_nil some
  by_cases starts : StartsSecret ((c :: rest).map carrier.char)
  · rw [maskSecrets_starts carrier starts]
    cases left : (c :: rest).drop
        (((c :: rest).map carrier.char).takeWhile isKeyChar).length with
    | nil =>
        refine absurd (isSecret_iff.mpr ⟨starts, ?_⟩) other
        have long := List.drop_eq_nil_iff.mp left
        rw [← List.length_map (f := carrier.char)] at long
        rw [← List.takeWhile_eq_self_iff]
        exact (List.takeWhile_prefix _).eq_of_length_le long
    | cons d later =>
        have inside : d ∈ c :: rest := List.mem_of_mem_drop (left ▸ List.mem_cons_self)
        have stops := stops_behind_takeWhile isKeyChar ((c :: rest).map carrier.char)
        rw [← List.map_drop, left] at stops
        have next : ¬StartsSecret ((d :: later).map carrier.char) := not_startsSecret stops
        refine ⟨d, inside, List.mem_append_right _ ?_⟩
        rw [maskSecrets_cons carrier next]
        exact List.mem_cons_self
  · rw [maskSecrets_cons carrier starts]
    exact ⟨c, List.mem_cons_self, List.mem_cons_self⟩

end Masking

/-! ### What is left -/

section Left

variable {text : List Char}

@[simp] theorem map_plain_char : text.map Carrier.plain.char = text := List.map_id text

@[simp] theorem map_plain_ofChar : text.map Carrier.plain.ofChar = text := List.map_id text

theorem maskSecrets_plain_starts (starts : StartsSecret text) :
    maskSecrets .plain text =
      secretMarker ++ maskSecrets .plain (text.drop (text.takeWhile isKeyChar).length) := by
  have starts' : StartsSecret (text.map Carrier.plain.char) := by simpa using starts
  simpa using maskSecrets_starts .plain starts'

theorem maskSecrets_plain_cons {c : Char} (other : ¬StartsSecret (c :: text)) :
    maskSecrets .plain (c :: text) = c :: maskSecrets .plain text :=
  maskSecrets_cons .plain (by rwa [map_plain_char])

/-- What is left of a key character for character is the front of the text. -/
theorem takeWhile_maskSecrets : (maskSecrets .plain text).takeWhile isKeyChar <+: text := by
  induction text with
  | nil => exact List.prefix_refl []
  | cons c text ih =>
      by_cases starts : StartsSecret (c :: text)
      · rw [maskSecrets_plain_starts starts]
        exact List.nil_prefix
      · rw [maskSecrets_plain_cons starts]
        cases here : isKeyChar c with
        | true =>
            rw [List.takeWhile_cons_of_pos here]
            exact (List.prefix_cons_inj c).mpr ih
        | false =>
            rw [List.takeWhile_cons_of_neg (by simp [here])]
            exact List.nil_prefix

/-- The rest of a text behind a key. -/
theorem length_drop_run (starts : StartsSecret text) :
    (text.drop (text.takeWhile isKeyChar).length).length < text.length := by
  obtain ⟨start, known, -, run⟩ := starts
  have least : ∀ start ∈ secretPrefixes, 23 ≤ start.1.length + start.2 := by decide
  have positive := (least start known).trans run
  have short := (List.takeWhile_sublist isKeyChar (l := text)).length_le
  rw [List.length_drop]
  omega

/-- The first substitution leaves no key. -/
theorem not_hasSecret_maskSecrets : ¬HasSecret (maskSecrets .plain text) := by
  rw [hasSecret_iff, not_exists]
  induction long : text.length using Nat.strong_induction_on generalizing text with
  | _ n ih =>
    intro i
    cases text with
    | nil =>
        intro starts
        have none := starts.length
        simp [maskSecrets] at none
    | cons c text =>
        by_cases starts : StartsSecret (c :: text)
        · rw [maskSecrets_plain_starts starts]
          by_cases inside : i < secretMarker.length
          · rw [List.drop_append_of_le_length inside.le]
            exact not_startsSecret_marker inside
          · obtain ⟨j, rfl⟩ := Nat.exists_eq_add_of_le (not_lt.mp inside)
            rw [List.drop_append]
            simp only [List.drop_eq_nil_of_le (Nat.le_add_right _ j), Nat.add_sub_cancel_left,
              List.nil_append]
            exact ih _ (long ▸ length_drop_run starts) rfl j
        · rw [maskSecrets_plain_cons starts]
          cases i with
          | zero =>
              intro again
              refine starts (again.mono ?_)
              rw [List.drop_zero, ← maskSecrets_plain_cons starts]
              exact takeWhile_maskSecrets
          | succ i => exact ih text.length (by simp [← long]) rfl i

/-! ### The end of a text -/

/-- What stands behind a run of characters of keys, and what ends the text. -/
theorem suffix_drop_run {b : List Char} (chars : ∀ c ∈ b, isKeyChar c = true) (ends : b <:+ text) :
    text.drop (text.takeWhile isKeyChar).length = [] ∨
      b <:+ text.drop (text.takeWhile isKeyChar).length := by
  cases left : text.drop (text.takeWhile isKeyChar).length with
  | nil => exact .inl rfl
  | cons d rest =>
      right
      have behind : d :: rest <:+ text := left ▸ List.drop_suffix _ _
      rcases Nat.le_total b.length (d :: rest).length with short | long
      · exact List.suffix_of_suffix_length_le ends behind short
      · have inside := (List.suffix_of_suffix_length_le behind ends long).subset List.mem_cons_self
        have stops := stops_behind_takeWhile isKeyChar text d (by rw [left]; rfl)
        rw [chars d inside] at stops
        cases stops

theorem isSecret_of_drop_run (starts : StartsSecret text)
    (nothing : text.drop (text.takeWhile isKeyChar).length = []) : IsSecret text := by
  refine isSecret_iff.mpr ⟨starts, ?_⟩
  rw [← List.takeWhile_eq_self_iff]
  exact (List.takeWhile_prefix _).eq_of_length_le (List.drop_eq_nil_iff.mp nothing)

theorem EndsSecret.mono {rest : List Char} (secret : EndsSecret rest) (ends : rest <:+ text) :
    EndsSecret text := by
  obtain ⟨key, inside, whole⟩ := secret
  exact ⟨key, inside.trans ends, whole⟩

theorem not_endsSecret_nil : ¬EndsSecret [] := by
  rintro ⟨key, ends, secret⟩
  rw [List.suffix_nil.mp ends] at secret
  have none := (isSecret_iff.mp secret).1.length
  simp at none

/-- A key at the end of the text is replaced. -/
theorem secretMarker_suffix (secret : EndsSecret text) : secretMarker <:+ maskSecrets .plain text := by
  induction long : text.length using Nat.strong_induction_on generalizing text with
  | _ n ih =>
    obtain ⟨key, ends, whole⟩ := secret
    cases text with
    | nil => exact absurd ⟨key, ends, whole⟩ not_endsSecret_nil
    | cons c text =>
        by_cases starts : StartsSecret (c :: text)
        · rw [maskSecrets_plain_starts starts]
          rcases suffix_drop_run (isSecret_iff.mp whole).2 ends with nothing | inside
          · rw [nothing]
            exact ⟨[], by simp [maskSecrets]⟩
          · exact (ih _ (long ▸ length_drop_run starts) ⟨key, inside, whole⟩ rfl).trans
              (List.suffix_append _ _)
        · rw [maskSecrets_plain_cons starts]
          rcases List.suffix_cons_iff.mp ends with rfl | inside
          · exact absurd (isSecret_iff.mp whole).1 starts
          · exact (ih text.length (by simp [← long]) ⟨key, inside, whole⟩ rfl).trans
              (List.suffix_cons c _)

theorem maskSecrets_short (short : text.length < 23) : maskSecrets .plain text = text := by
  induction text with
  | nil => rfl
  | cons c text ih =>
      have other : ¬StartsSecret (c :: text) := fun starts => by
        have long := starts.length
        omega
      rw [maskSecrets_plain_cons other, ih (by rw [List.length_cons] at short; omega)]

/-- Where no marker is left, nothing was replaced. -/
theorem maskSecrets_of_chars (chars : ∀ c ∈ maskSecrets .plain text, isKeyChar c = true) :
    maskSecrets .plain text = text := by
  induction text with
  | nil => rfl
  | cons c text ih =>
      by_cases starts : StartsSecret (c :: text)
      · rw [maskSecrets_plain_starts starts] at chars
        have bracket := chars '[' (List.mem_append_left _ (by decide))
        exact absurd bracket (by decide)
      · rw [maskSecrets_plain_cons starts] at chars ⊢
        rw [ih (List.forall_mem_cons.mp chars).2]

/-- A short word of such characters is at the end of the masked text exactly when it is
    at the end of the text and not in a key. -/
theorem suffix_maskSecrets_iff {b : List Char} (some : b ≠ []) (short : b.length < 23)
    (chars : ∀ c ∈ b, isKeyChar c = true) :
    b <:+ maskSecrets .plain text ↔ b <:+ text ∧ ¬EndsSecret text := by
  have bracket : ']' ∉ b := fun inside => absurd (chars _ inside) (by decide)
  have marked : ∀ rest, b <:+ secretMarker ++ rest → b <:+ rest := by
    intro rest ends
    rcases Nat.lt_or_ge rest.length b.length with longer | shorter
    · have last : ']' :: rest <:+ secretMarker ++ rest :=
        ⟨"[REDACTED_API_KEY".toList, by rw [secretMarker_split]; simp⟩
      exact absurd ((List.suffix_of_suffix_length_le last ends longer).subset List.mem_cons_self)
        bracket
    · exact List.suffix_of_suffix_length_le ends (List.suffix_append _ _) shorter
  constructor
  · intro ends
    refine ⟨?_, fun secret => ?_⟩
    · induction long : text.length using Nat.strong_induction_on generalizing text with
      | _ n ih =>
        cases text with
        | nil => exact ends
        | cons c text =>
            by_cases starts : StartsSecret (c :: text)
            · rw [maskSecrets_plain_starts starts] at ends
              exact (ih _ (long ▸ length_drop_run starts) (marked _ ends) rfl).trans
                (List.drop_suffix _ _)
            · rw [maskSecrets_plain_cons starts] at ends
              rcases List.suffix_cons_iff.mp ends with rfl | inside
              · have kept := maskSecrets_of_chars (List.forall_mem_cons.mp chars).2
                exact kept.symm ▸ List.suffix_refl _
              · exact (ih text.length (by simp [← long]) inside rfl).trans (List.suffix_cons c _)
    · have last : [']'] <:+ maskSecrets .plain text :=
        (List.IsSuffix.trans ⟨"[REDACTED_API_KEY".toList, by decide⟩ (secretMarker_suffix secret))
      have one : [']'].length ≤ b.length := List.length_pos_iff.mpr some
      exact bracket ((List.suffix_of_suffix_length_le last ends one).subset List.mem_cons_self)
  · rintro ⟨ends, free⟩
    induction long : text.length using Nat.strong_induction_on generalizing text with
    | _ n ih =>
      cases text with
      | nil => exact ends
      | cons c text =>
          by_cases starts : StartsSecret (c :: text)
          · rw [maskSecrets_plain_starts starts]
            rcases suffix_drop_run chars ends with nothing | inside
            · exact absurd ⟨_, List.suffix_refl _, isSecret_of_drop_run starts nothing⟩ free
            · exact (ih _ (long ▸ length_drop_run starts) inside
                (fun secret => free (secret.mono (List.drop_suffix _ _))) rfl).trans
                (List.suffix_append _ _)
          · rcases List.suffix_cons_iff.mp ends with rfl | inside
            · exact (maskSecrets_short short).symm ▸ List.suffix_refl _
            · rw [maskSecrets_plain_cons starts]
              exact (ih text.length (by simp [← long]) inside
                (fun secret => free (secret.mono (List.suffix_cons c _))) rfl).trans
                (List.suffix_cons c _)

end Left

end DuraLLM
