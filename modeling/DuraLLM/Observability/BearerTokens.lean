import DuraLLM.Lib.Words
import DuraLLM.Observability.MaskedKeys

/-! # Masked bearer tokens

The second substitution looks at the words of a text.  A word that ends with
`bearer` takes the next word with it, which is then not looked at again.
-/

namespace DuraLLM

/-- The word ends with `bearer`. -/
def endsBearer (lib : LogReaders) (word : List Char) : Bool :=
  isBearer lib (word.drop (word.length - 6))

section Chars

variable (lib : LogReaders) {x y : List Char}

theorem isKeyChar_printable {c : Char} (key : isKeyChar c = true) : 0x20 < c.toNat ∧ c.toNat < 0x7f := by
  have upper : c.isUpper = decide (c.val ≥ 'A'.val ∧ c.val ≤ 'Z'.val) := rfl
  have lower : c.isLower = (decide (c.val ≥ 'a'.val) && decide (c.val ≤ 'z'.val)) := rfl
  have alphanum : c.isAlphanum = (c.isUpper || c.isLower || c.isDigit) := rfl
  simp only [isKeyChar, alphanum, upper, lower, Char.isDigit, Bool.or_eq_true,
    Bool.and_eq_true, decide_eq_true_eq, ge_iff_le, UInt32.le_iff_toNat_le] at key
  have value : c.val.toNat = c.toNat := rfl
  have first : 'A'.val.toNat = 65 ∧ 'a'.val.toNat = 97 ∧ '0'.val.toNat = 48 := by decide
  have last : 'Z'.val.toNat = 90 ∧ 'z'.val.toNat = 122 ∧ '9'.val.toNat = 57 := by decide
  rcases key with ((((_ | _) | _) | rfl) | rfl) <;> first | omega | decide

theorem space_isKeyChar {c : Char} (here : lib.chars.space c = true) : isKeyChar c = false := by
  cases key : isKeyChar c with
  | false => rfl
  | true =>
      obtain ⟨low, high⟩ := isKeyChar_printable key
      rw [lib.space_printable c low high] at here
      cases here

/-- Its letters are characters of keys, and no blanks. -/
theorem isBearer_chars (bearer : isBearer lib x = true) :
    x.length = 6 ∧ ∀ c ∈ x, isKeyChar c = true ∧ lib.chars.space c = false := by
  have same : x.map lib.chars.lower = "bearer".toList.map lib.chars.lower := by
    simpa [isBearer] using bearer
  refine ⟨by simpa using congrArg List.length same, fun d member => ?_⟩
  have lowered : lib.chars.lower d ∈ "bearer".toList.map lib.chars.lower :=
    same ▸ List.mem_map_of_mem member
  obtain ⟨c, letter, folded⟩ := List.mem_map.mp lowered
  have letters : ∀ c ∈ "bearer".toList, ∀ d ∈ [c, c.toUpper],
      isKeyChar d = true ∧ 0x20 < d.toNat ∧ d.toNat < 0x7f := by
    simp only [← List.forall_iff_forall_mem]
    decide
  have case : d ∈ [c, c.toUpper] := by
    simpa using lib.bearer_letters c letter d folded.symm
  obtain ⟨key, low, high⟩ := letters c letter d case
  exact ⟨key, lib.space_printable d low high⟩

theorem endsBearer_iff : endsBearer lib x = true ↔ ∃ b, b <:+ x ∧ isBearer lib b = true := by
  constructor
  · intro ends
    exact ⟨_, List.drop_suffix _ _, ends⟩
  · rintro ⟨b, ends, bearer⟩
    rw [endsBearer, ← (isBearer_chars lib bearer).1, ← List.suffix_iff_eq_drop.mp ends]
    exact bearer

theorem endsBearer_mono (ends : endsBearer lib y = true) (suffix : y <:+ x) :
    endsBearer lib x = true := by
  obtain ⟨b, inside, bearer⟩ := (endsBearer_iff lib).mp ends
  exact (endsBearer_iff lib).mpr ⟨b, inside.trans suffix, bearer⟩

/-- After the first substitution, a word ends with `bearer` if it did before, and not
    as the end of a key. -/
theorem endsBearer_maskSecrets :
    endsBearer lib (maskSecrets .plain x) = true ↔ endsBearer lib x = true ∧ ¬EndsSecret x := by
  have each : ∀ b, isBearer lib b = true →
      (b <:+ maskSecrets .plain x ↔ b <:+ x ∧ ¬EndsSecret x) := by
    intro b bearer
    obtain ⟨six, chars⟩ := isBearer_chars lib bearer
    refine suffix_maskSecrets_iff ?_ (by omega) fun c member => (chars c member).1
    rintro rfl
    cases six
  simp only [endsBearer_iff]
  constructor
  · rintro ⟨b, ends, bearer⟩
    obtain ⟨inside, free⟩ := (each b bearer).mp ends
    exact ⟨⟨b, inside, bearer⟩, free⟩
  · rintro ⟨⟨b, inside, bearer⟩, free⟩
    exact ⟨b, (each b bearer).mpr ⟨inside, free⟩, bearer⟩

/-! ## A match of `BEARER_PATTERN` -/

theorem bearerAt_blank {c : Char} (here : lib.chars.space c = true) : bearerAt lib (c :: x) = none := by
  have other : isBearer lib ((c :: x).take 6) = false := by
    by_contra bearer
    rw [Bool.not_eq_false] at bearer
    have solid := ((isBearer_chars lib bearer).2 c List.mem_cons_self).2
    rw [here] at solid
    cases solid
  simp only [bearerAt, other, Bool.false_and, Bool.false_eq_true, if_false]

/-- Within a word there is a match only for `bearer` at its end, and only where
    another word follows. -/
theorem bearerAt_solid (solid : ∀ c ∈ x, lib.chars.space c = false)
    (apart : ∀ c ∈ y.head?, lib.chars.space c = true)
    (other : isBearer lib x = false ∨ ∀ c ∈ y, lib.chars.space c = true) :
    bearerAt lib (x ++ y) = none := by
  rcases Nat.lt_trichotomy x.length 6 with short | six | long
  · have none : isBearer lib ((x ++ y).take 6) = false := by
      by_contra bearer
      rw [Bool.not_eq_false] at bearer
      obtain ⟨six, chars⟩ := isBearer_chars lib bearer
      cases y with
      | nil =>
          rw [List.append_nil, List.length_take] at six
          omega
      | cons c y =>
          have inside : c ∈ (x ++ c :: y).take 6 := by
            rw [List.take_append]
            refine List.mem_append_right _ ?_
            obtain ⟨n, left⟩ := Nat.exists_eq_add_of_lt short
            rw [show 6 - x.length = n + 1 by omega, List.take_succ_cons]
            exact List.mem_cons_self
          have blank := (chars c inside).2
          rw [apart c rfl] at blank
          cases blank
    simp only [bearerAt, none, Bool.false_and, Bool.false_eq_true, if_false]
  · have front : (x ++ y).take 6 = x := by rw [← six, List.take_left]
    have back : (x ++ y).drop 6 = y := by rw [← six, List.drop_left]
    simp only [bearerAt, front, back]
    rcases other with other | blanks
    · simp only [other, Bool.false_and, Bool.false_eq_true, if_false]
    · have nothing : y.dropWhile lib.chars.space = [] := List.dropWhile_eq_nil_iff.mpr blanks
      simp only [nothing, List.takeWhile_nil, List.isEmpty_nil, Bool.not_true, Bool.and_false,
        Bool.false_eq_true, if_false]
  · obtain ⟨c, rest, left⟩ : ∃ c rest, x.drop 6 = c :: rest := by
      refine List.exists_cons_of_ne_nil fun none => ?_
      have short := List.drop_eq_nil_iff.mp none
      omega
    have back : (x ++ y).drop 6 = c :: (rest ++ y) := by
      rw [List.drop_append_of_le_length long.le, left, List.cons_append]
    have inside : c ∈ x := List.mem_of_mem_drop (left ▸ List.mem_cons_self)
    have none : (c :: (rest ++ y)).takeWhile lib.chars.space = [] := by
      rw [List.takeWhile_cons, solid c inside]
      rfl
    simp only [bearerAt, back, none, List.isEmpty_nil, Bool.not_true, Bool.and_false,
      Bool.false_and, Bool.false_eq_true, if_false]

theorem bearerAt_bearer {g t post : List Char} (bearer : isBearer lib x = true)
    (gap : g ≠ []) (blanks : ∀ c ∈ g, lib.chars.space c = true) (token : t ≠ [])
    (solid : ∀ c ∈ t, lib.chars.space c = false) (apart : ∀ c ∈ post.head?, lib.chars.space c = true) :
    bearerAt lib (x ++ (g ++ (t ++ post))) = some (6 + g.length, 6 + g.length + t.length) := by
  have six := (isBearer_chars lib bearer).1
  have front : (x ++ (g ++ (t ++ post))).take 6 = x := by rw [← six, List.take_left]
  have back : (x ++ (g ++ (t ++ post))).drop 6 = g ++ (t ++ post) := by rw [← six, List.drop_left]
  obtain ⟨c, t', rfl⟩ := List.exists_cons_of_ne_nil token
  have first := solid c List.mem_cons_self
  have spaces : (g ++ (c :: t' ++ post)).takeWhile lib.chars.space = g := by
    rw [takeWhile_all blanks, List.cons_append, List.takeWhile_cons, first]
    simp
  have rest : (g ++ (c :: t' ++ post)).dropWhile lib.chars.space = c :: t' ++ post := by
    rw [List.dropWhile_append_of_pos blanks, List.cons_append, List.dropWhile_cons, first]
    rfl
  have word : (c :: t' ++ post).takeWhile (fun c => !lib.chars.space c) = c :: t' := by
    rw [takeWhile_all (fun d member => by rw [solid d member]; rfl)]
    have stop : post.takeWhile (fun c => !lib.chars.space c) = [] := by
      cases post with
      | nil => rfl
      | cons d post =>
          rw [List.takeWhile_cons, apart d rfl]
          rfl
    rw [stop, List.append_nil]
  simp only [bearerAt, front, back, spaces, rest, word, bearer]
  rw [if_pos (by simpa using gap)]

theorem bearerAt_eq_some {text : List Char} {kept length : Nat}
    (found : bearerAt lib text = some (kept, length)) :
    ∃ x g t post, text = x ++ (g ++ (t ++ post)) ∧ isBearer lib x = true ∧ g ≠ [] ∧
      (∀ c ∈ g, lib.chars.space c = true) ∧ t ≠ [] ∧ (∀ c ∈ t, lib.chars.space c = false) ∧
      (∀ c ∈ post.head?, lib.chars.space c = true) ∧
      kept = 6 + g.length ∧ length = 6 + g.length + t.length := by
  simp only [bearerAt] at found
  split at found
  · next matched =>
    simp only [Bool.and_eq_true, Bool.not_eq_true', List.isEmpty_eq_false_iff] at matched
    obtain ⟨⟨bearer, gap⟩, token⟩ := matched
    cases found
    refine ⟨text.take 6, _, _, ((text.drop 6).dropWhile lib.chars.space).dropWhile
      (fun c => !lib.chars.space c), ?_, bearer, gap, fun c member => ?_, token, fun c member => ?_,
      fun c first => ?_, rfl, rfl⟩
    · rw [List.takeWhile_append_dropWhile, List.takeWhile_append_dropWhile, List.take_append_drop]
    · exact List.mem_takeWhile_imp member
    · simpa using List.mem_takeWhile_imp member
    · have stop := List.head?_dropWhile_not (fun c => !lib.chars.space c)
        ((text.drop 6).dropWhile lib.chars.space)
      rw [Option.mem_def.mp first] at stop
      simpa using stop
  · cases found

end Chars

/-! ## The second substitution -/

section Masking

variable {α : Type} (carrier : Carrier α) (lib : LogReaders)

def Carrier.blank (c : α) : Bool := lib.chars.space (carrier.char c)

/-- The words after the second substitution.  `hit`: the next word is a token. -/
def relay : Bool → List (List α) → List (List α)
  | _, [] => []
  | true, _ :: words => secretMarker.map carrier.ofChar :: relay false words
  | false, w :: words => w :: relay (endsBearer lib (w.map carrier.char)) words

/-- Whether the word behind these is a token. -/
def hitAfter : Bool → List (List α) → Bool
  | hit, [] => hit
  | true, _ :: words => hitAfter false words
  | false, w :: words => hitAfter (endsBearer lib (w.map carrier.char)) words

variable {carrier lib} {text rest : List α} {words : List (List α)}

theorem blank_ofChar {c : Char} : carrier.blank lib (carrier.ofChar c) = lib.chars.space c := by
  rw [Carrier.blank, carrier.char_ofChar]

/-- The marker is a word. -/
theorem secretMarker_solid : ∀ c ∈ secretMarker.map carrier.ofChar, carrier.blank lib c = false := by
  intro c member
  obtain ⟨d, inside, rfl⟩ := List.mem_map.mp member
  have printable : ∀ d ∈ secretMarker, 0x20 < d.toNat ∧ d.toNat < 0x7f :=
    List.forall_iff_forall_mem.mp (by decide)
  obtain ⟨low, high⟩ := printable d inside
  rw [blank_ofChar]
  exact lib.space_printable d low high

theorem maskBearers_cons {c : α} (none : bearerAt lib ((c :: text).map carrier.char) = none) :
    maskBearers carrier lib (c :: text) = c :: maskBearers carrier lib text :=
  substitute_none none

theorem maskBearers_blanks {gap : List α} (blanks : ∀ c ∈ gap, carrier.blank lib c = true) :
    maskBearers carrier lib (gap ++ text) = gap ++ maskBearers carrier lib text := by
  induction gap with
  | nil => rfl
  | cons c gap ih =>
      obtain ⟨here, blanks⟩ := List.forall_mem_cons.mp blanks
      have none : bearerAt lib ((c :: (gap ++ text)).map carrier.char) = none :=
        bearerAt_blank lib here
      rw [List.cons_append, maskBearers_cons none, ih blanks, List.cons_append]

/-- The front of a word stays when `bearer` does not begin there, or nothing follows. -/
theorem maskBearers_solid {p x : List α} (solid : ∀ c ∈ p ++ x, carrier.blank lib c = false)
    (apart : ∀ c ∈ rest.head?, carrier.blank lib c = true)
    (other : (∀ i < p.length, isBearer lib (((p ++ x).drop i).map carrier.char) = false) ∨
      ∀ c ∈ rest, carrier.blank lib c = true) :
    maskBearers carrier lib (p ++ (x ++ rest)) = p ++ maskBearers carrier lib (x ++ rest) := by
  induction p with
  | nil => rfl
  | cons c p ih =>
      have none : bearerAt lib ((c :: (p ++ (x ++ rest))).map carrier.char) = none := by
        have split : (c :: (p ++ (x ++ rest))).map carrier.char =
            (c :: (p ++ x)).map carrier.char ++ rest.map carrier.char := by simp
        rw [split]
        refine bearerAt_solid lib ?_ ?_ ?_
        · intro d member
          obtain ⟨e, inside, rfl⟩ := List.mem_map.mp member
          exact solid e inside
        · intro d first
          rw [List.head?_map] at first
          obtain ⟨e, here, rfl⟩ := Option.map_eq_some_iff.mp first
          exact apart e here
        · rcases other with other | blanks
          · exact .inl (other 0 (Nat.succ_pos _))
          · refine .inr fun d member => ?_
            obtain ⟨e, inside, rfl⟩ := List.mem_map.mp member
            exact blanks e inside
      have later := ih (List.forall_mem_cons.mp solid).2 (other.imp_left fun each i small =>
        each (i + 1) (Nat.succ_lt_succ small))
      rw [List.cons_append, maskBearers_cons none, later, List.cons_append]

theorem maskBearers_bearer {x gap t : List α} (bearer : isBearer lib (x.map carrier.char) = true)
    (gapped : gap ≠ []) (blanks : ∀ c ∈ gap, carrier.blank lib c = true) (token : t ≠ [])
    (solid : ∀ c ∈ t, carrier.blank lib c = false)
    (apart : ∀ c ∈ rest.head?, carrier.blank lib c = true) :
    maskBearers carrier lib (x ++ (gap ++ (t ++ rest))) =
      x ++ (gap ++ (secretMarker.map carrier.ofChar ++ maskBearers carrier lib rest)) := by
  have six := (isBearer_chars lib bearer).1
  rw [List.length_map] at six
  have found : bearerAt lib ((x ++ (gap ++ (t ++ rest))).map carrier.char) =
      some (6 + gap.length, 6 + gap.length + t.length) := by
    have behind : ∀ d ∈ (rest.map carrier.char).head?, lib.chars.space d = true := by
      intro d first
      rw [List.head?_map] at first
      obtain ⟨e, here, rfl⟩ := Option.map_eq_some_iff.mp first
      exact apart e here
    have matched := @bearerAt_bearer lib _ (gap.map carrier.char) (t.map carrier.char)
      (rest.map carrier.char) bearer (by simpa using gapped) (by simpa [Carrier.blank] using blanks)
      (by simpa using token) (by simpa [Carrier.blank] using solid) behind
    simpa using matched
  have nonempty : x ++ (gap ++ (t ++ rest)) ≠ [] := by simp [gapped]
  have kept : (x ++ (gap ++ (t ++ rest))).take (6 + gap.length) = x ++ gap := by
    rw [← List.append_assoc, List.take_left' (by simp [six])]
  have dropped : (x ++ (gap ++ (t ++ rest))).drop (6 + gap.length + t.length) = rest := by
    rw [← List.append_assoc, ← List.append_assoc, List.drop_left' (by simp [six]; omega)]
  have replaced := @substitute_match α (fun text => bearerAt lib (text.map carrier.char))
    (secretMarker.map carrier.ofChar) _ _ _ found nonempty (by omega)
  rw [kept, dropped, List.append_assoc, List.append_assoc] at replaced
  exact replaced

/-! ### The words -/

/-- In front of a blank nothing is replaced. -/
theorem head_maskBearers (apart : ∀ c ∈ text.head?, carrier.blank lib c = true) :
    ∀ c ∈ (maskBearers carrier lib text).head?, carrier.blank lib c = true := by
  cases text with
  | nil => simp [maskBearers]
  | cons c text =>
      have here : carrier.blank lib c = true := apart c rfl
      rw [maskBearers_cons (bearerAt_blank lib here)]
      simpa using here

/-- A word stays that does not end with `bearer`, or that nothing follows. -/
theorem maskBearers_word {w : List α} (solid : ∀ c ∈ w, carrier.blank lib c = false)
    (apart : ∀ c ∈ rest.head?, carrier.blank lib c = true)
    (other : endsBearer lib (w.map carrier.char) = false ∨ ∀ c ∈ rest, carrier.blank lib c = true) :
    maskBearers carrier lib (w ++ rest) = w ++ maskBearers carrier lib rest := by
  have kept := maskBearers_solid (p := w) (x := []) (by simpa using solid) apart
    (other.imp_left fun none i small => ?_)
  · simpa using kept
  · by_contra bearer
    rw [Bool.not_eq_false, List.append_nil] at bearer
    have ends := (endsBearer_iff lib).mpr
      ⟨_, (List.drop_suffix i w).map carrier.char, bearer⟩
    rw [none] at ends
    cases ends

/-- A word that ends with `bearer` takes the next one with it. -/
theorem maskBearers_hit {w gap t : List α} (solid : ∀ c ∈ w, carrier.blank lib c = false)
    (ends : endsBearer lib (w.map carrier.char) = true) (gapped : gap ≠ [])
    (blanks : ∀ c ∈ gap, carrier.blank lib c = true) (token : t ≠ [])
    (solid' : ∀ c ∈ t, carrier.blank lib c = false)
    (apart : ∀ c ∈ rest.head?, carrier.blank lib c = true) :
    maskBearers carrier lib (w ++ (gap ++ (t ++ rest))) =
      w ++ (gap ++ (secretMarker.map carrier.ofChar ++ maskBearers carrier lib rest)) := by
  have last : isBearer lib ((w.drop (w.length - 6)).map carrier.char) = true := by
    simpa [endsBearer, List.map_drop] using ends
  have six := (isBearer_chars lib last).1
  rw [List.length_map, List.length_drop] at six
  have split := List.take_append_drop (w.length - 6) w
  have first : ∀ c ∈ (gap ++ (t ++ rest)).head?, carrier.blank lib c = true := by
    obtain ⟨c, gap, rfl⟩ := List.exists_cons_of_ne_nil gapped
    rintro d ⟨⟩
    exact blanks c List.mem_cons_self
  have front := @maskBearers_solid α carrier lib (gap ++ (t ++ rest)) (w.take (w.length - 6))
    (w.drop (w.length - 6)) (by rwa [split]) first (.inl fun i small => ?_)
  · have whole : ∀ later, w.take (w.length - 6) ++ (w.drop (w.length - 6) ++ later) = w ++ later :=
      fun later => by rw [← List.append_assoc, split]
    rw [maskBearers_bearer last gapped blanks token solid' apart, whole, whole] at front
    exact front
  · -- before the last six characters more than six are left
    by_contra bearer
    rw [Bool.not_eq_false, split] at bearer
    have left := (isBearer_chars lib bearer).1
    rw [List.length_map, List.length_drop] at left
    rw [List.length_take] at small
    omega

/-- The second substitution word for word. -/
theorem worded_maskBearers (worded : Worded (carrier.blank lib) text words) :
    Worded (carrier.blank lib) (maskBearers carrier lib text) (relay carrier lib false words) := by
  induction few : words.length using Nat.strong_induction_on generalizing text words with
  | _ n ih =>
    cases words with
    | nil =>
        have same : maskBearers carrier lib (text ++ []) = text ++ maskBearers carrier lib [] :=
          maskBearers_blanks worded.blank_of_nil
        rw [List.append_nil, show maskBearers carrier lib [] = [] from rfl, List.append_nil] at same
        rw [same]
        exact worded
    | cons w words =>
        obtain ⟨gap, rest, rfl, blanks, some, solid, apart, left⟩ := worded.first
        rw [maskBearers_blanks blanks]
        refine .blanks blanks ?_
        have short : words.length < n := by rw [← few]; exact Nat.lt_succ_self _
        cases ends : endsBearer lib (w.map carrier.char) with
        | false =>
            rw [maskBearers_word solid apart (.inl ends), relay, ends]
            exact .word some solid (head_maskBearers apart) (ih _ short left rfl)
        | true =>
            cases words with
            | nil =>
                rw [maskBearers_word solid apart (.inr left.blank_of_nil)]
                exact .word some solid (head_maskBearers apart) (ih _ short left rfl)
            | cons t words =>
                obtain ⟨gap', rest', rfl, blanks', token, solid', apart', left'⟩ := left.first
                have gapped : gap' ≠ [] := by
                  rintro rfl
                  obtain ⟨c, t, rfl⟩ := List.exists_cons_of_ne_nil token
                  have here := apart c rfl
                  rw [solid' c List.mem_cons_self] at here
                  cases here
                rw [maskBearers_hit solid ends gapped blanks' token solid' apart', relay, ends, relay]
                have later := ih words.length ((Nat.lt_succ_self _).trans short) left' rfl
                have first : ∀ c ∈ (gap' ++ (secretMarker.map carrier.ofChar ++
                    maskBearers carrier lib rest')).head?, carrier.blank lib c = true := by
                  obtain ⟨c, gap', rfl⟩ := List.exists_cons_of_ne_nil gapped
                  rintro d ⟨⟩
                  exact blanks' c List.mem_cons_self
                exact .word some solid first (.blanks blanks' (.word (secretMarker_ne_nil carrier)
                  secretMarker_solid (head_maskBearers apart') later))

theorem relay_append (hit : Bool) (front back : List (List α)) :
    relay carrier lib hit (front ++ back) =
      relay carrier lib hit front ++ relay carrier lib (hitAfter carrier lib hit front) back := by
  induction front generalizing hit with
  | nil => rfl
  | cons w front ih => cases hit <;> simp [relay, hitAfter, ih]

theorem hitAfter_append (hit : Bool) (front back : List (List α)) :
    hitAfter carrier lib hit (front ++ back) =
      hitAfter carrier lib (hitAfter carrier lib hit front) back := by
  induction front generalizing hit with
  | nil => rfl
  | cons w front ih => cases hit <;> simp [hitAfter, ih]

/-- Both substitutions word for word. -/
theorem worded_maskSecrets (worded : Worded (carrier.blank lib) text words) :
    Worded (carrier.blank lib) (maskSecrets carrier text) (words.map (maskSecrets carrier)) := by
  induction worded with
  | nil => exact .nil
  | @gap c text words here rest ih =>
      have other : ¬StartsSecret ((c :: text).map carrier.char) :=
        not_startsSecret (by rintro d ⟨⟩; exact space_isKeyChar lib here)
      rw [maskSecrets_cons carrier other]
      exact .gap here ih
  | @word w text words some solid apart rest ih =>
      have stops : ∀ c ∈ text.head?, isKeyChar (carrier.char c) = false :=
        fun c first => space_isKeyChar lib (apart c first)
      rw [maskSecrets_append carrier stops]
      refine .word (maskSecrets_ne_nil carrier some) ?_ ?_ ih
      · intro c member
        rcases mem_substitute member with inside | marker
        · exact solid c inside
        · exact secretMarker_solid c marker
      · cases text with
        | nil => simp [maskSecrets]
        | cons c text =>
            have other : ¬StartsSecret ((c :: text).map carrier.char) :=
              not_startsSecret (by rintro d ⟨⟩; exact stops c rfl)
            rw [maskSecrets_cons carrier other]
            exact apart

end Masking

/-! ## What is left -/

section Left

variable {lib : LogReaders} {text : List Char} {words : List (List Char)}

/-- A key is in one word. -/
theorem hasSecret_of_worded (worded : Worded lib.chars.space text words) (secret : HasSecret text) :
    ∃ w ∈ words, HasSecret w := by
  induction worded with
  | nil =>
      have long := secret.length
      simp at long
  | @gap c text words here rest ih =>
      have stops : ∀ d ∈ (c :: text).head?, isKeyChar d = false := by
        rintro d ⟨⟩
        exact space_isKeyChar lib here
      obtain ⟨i, starts⟩ := hasSecret_iff.mp secret
      cases i with
      | zero => exact absurd starts (not_startsSecret stops)
      | succ i => exact ih (hasSecret_iff.mpr ⟨i, starts⟩)
  | word some solid apart rest ih =>
      rcases (hasSecret_append fun c first => space_isKeyChar lib (apart c first)).mp secret with
        inside | behind
      · exact ⟨_, List.mem_cons_self, inside⟩
      · obtain ⟨w, place, inside⟩ := ih behind
        exact ⟨w, List.mem_cons_of_mem _ place, inside⟩

theorem mem_relay {α : Type} {carrier : Carrier α} {hit : Bool} {words : List (List α)} {v : List α}
    (place : v ∈ relay carrier lib hit words) :
    v = secretMarker.map carrier.ofChar ∨ v ∈ words := by
  induction words generalizing hit with
  | nil => simp [relay] at place
  | cons w words ih =>
      cases hit with
      | true =>
          rcases List.mem_cons.mp place with rfl | later
          · exact .inl rfl
          · exact (ih later).imp_right (List.mem_cons_of_mem w)
      | false =>
          rcases List.mem_cons.mp place with rfl | later
          · exact .inr List.mem_cons_self
          · exact (ih later).imp_right (List.mem_cons_of_mem w)

/-- Neither substitution leaves a key. -/
theorem not_hasSecret_maskText : ¬HasSecret (maskText .plain lib text) := by
  intro secret
  obtain ⟨words, worded⟩ := @exists_worded Char (Carrier.plain.blank lib) text
  obtain ⟨v, place, inside⟩ :=
    hasSecret_of_worded (worded_maskBearers (worded_maskSecrets worded)) secret
  rcases mem_relay place with rfl | place
  · rw [map_plain_ofChar] at inside
    exact absurd inside.length (by decide)
  · obtain ⟨w, -, rfl⟩ := List.mem_map.mp place
    exact not_hasSecret_maskSecrets inside

end Left

end DuraLLM
