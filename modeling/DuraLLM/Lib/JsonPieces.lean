import DuraLLM.Lib.JsonAccess
import Mathlib.Data.List.Chain
import Mathlib.Data.List.TakeWhile

/-! # Pieces of JSON texts

What a reader makes of a text that has been cut.  An object that was read does
not change when more text arrives, so what is cut off the end of an object does
not decode.  A piece from inside a string may look like an object, but it can
only be the empty one: the quotes that would start a member have been escaped.
-/

/-! ## More text -/

namespace JsonString

theorem readUnits_more {chars rest : List Char} {units : List Nat}
    (found : readUnits chars = some (units, rest)) (more : List Char) :
    readUnits (chars ++ more) = some (units, rest ++ more) := by
  induction chars using readUnits.induct generalizing units rest with
  | case1 tail =>
      simp only [readUnits, Option.some.injEq, Prod.mk.injEq] at found
      obtain ⟨rfl, rfl⟩ := found
      rfl
  | case2 a b c d tail ih =>
      simp only [readUnits, List.cons_append, Option.bind_eq_bind, Option.pure_def,
        Option.bind_eq_some_iff, Option.some.injEq, Prod.mk.injEq] at found ⊢
      obtain ⟨unit, escaped, p, read, rfl, rfl⟩ := found
      exact ⟨unit, escaped, _, ih read, rfl, rfl⟩
  | case3 c tail notHex ih =>
      have other : c ≠ 'u' := by
        rintro rfl
        rw [readUnits] at found
        · simp [simpleEscape] at found
        · exact notHex
      rw [readUnits] at found
      · rw [List.cons_append, List.cons_append, readUnits]
        · simp only [Option.bind_eq_bind, Option.pure_def, Option.bind_eq_some_iff,
            Option.some.injEq, Prod.mk.injEq] at found ⊢
          obtain ⟨unit, escaped, p, read, rfl, rfl⟩ := found
          exact ⟨unit, escaped, _, ih read, rfl, rfl⟩
        · exact fun _ _ _ _ _ same => absurd same other
      · exact notHex
  | case4 c tail notQuote notHex notEscape control =>
      rw [readUnits] at found
      · simp [control] at found
      · exact notQuote
      · exact notHex
      · exact notEscape
  | case5 c tail notQuote notHex notEscape printable ih =>
      have other : c ≠ '\x5c' := by
        rintro rfl
        cases tail with
        | nil => simp [readUnits] at found
        | cons d tail => exact notEscape d tail rfl rfl
      rw [readUnits] at found
      · rw [List.cons_append, readUnits]
        · simp only [printable, if_false, Option.bind_eq_bind, Option.pure_def,
            Option.bind_eq_some_iff, Option.some.injEq, Prod.mk.injEq] at found ⊢
          obtain ⟨p, read, rfl, rfl⟩ := found
          exact ⟨_, ih read, rfl, rfl⟩
        · exact notQuote
        · exact fun _ _ _ _ _ same => absurd same other
        · exact fun _ _ same => absurd same other
      · exact notQuote
      · exact notHex
      · exact notEscape
  | case6 => cases found

theorem read_more {chars rest : List Char} {s : String} (found : read chars = some (s, rest))
    (more : List Char) : read (chars ++ more) = some (s, rest ++ more) := by
  simp only [read, Option.bind_eq_bind, Option.pure_def, Option.bind_eq_some_iff, Option.some.injEq,
    Prod.mk.injEq] at found ⊢
  obtain ⟨p, units, text, joined, rfl, rfl⟩ := found
  exact ⟨_, readUnits_more units more, text, joined, rfl, rfl⟩

end JsonString

namespace JsonRaw

theorem skip_more {chars rest : List Char} {c : Char} (found : skip chars = c :: rest)
    (more : List Char) : skip (chars ++ more) = c :: (rest ++ more) := by
  simp only [skip] at found ⊢
  simp [List.dropWhile_append, found]

/-- Nothing that follows can be a part of the value. -/
def Closed : JsonRaw → List Char → Prop
  | .scalar _, rest => rest ≠ []
  | _, _ => True

/-- A token that has ended does not grow. -/
theorem span_more {p : Char → Bool} {chars : List Char} (ends : chars.dropWhile p ≠ [])
    (more : List Char) :
    (chars ++ more).takeWhile p = chars.takeWhile p ∧
      (chars ++ more).dropWhile p = chars.dropWhile p ++ more := by
  induction chars with
  | nil => exact absurd rfl ends
  | cons c chars ih =>
      by_cases inside : p c = true
      · rw [List.dropWhile_cons_of_pos inside] at ends
        obtain ⟨taken, dropped⟩ := ih ends
        simp [inside, taken, dropped]
      · simp [inside]

theorem read_nil (fuel : Nat) : read fuel [] = none := by
  cases fuel with
  | zero => rfl
  | succ fuel => simp [read, JsonScalar.read, floatText, JsonScalar.readInt, JsonScalar.readNat]

theorem readItems_nil (fuel : Nat) : readItems fuel [] = none := by
  cases fuel with
  | zero => rfl
  | succ fuel => simp [readItems, read_nil]

theorem readMembers_nil (fuel : Nat) : readMembers fuel [] = none := by
  cases fuel <;> simp [readMembers]

theorem closed_of_ne_nil {v : JsonRaw} {rest : List Char} (some : rest ≠ []) : v.Closed rest := by
  cases v <;> first | exact some | trivial

/-- More fuel and more text do not change what was read. -/
def Steady {β : Type} (reader : Nat → List Char → Option (β × List Char))
    (closed : β → List Char → Prop) (fuel : Nat) : Prop :=
  ∀ chars rest v, reader fuel chars = some (v, rest) → closed v rest →
    ∀ fuel', fuel ≤ fuel' → ∀ more, reader fuel' (chars ++ more) = some (v, rest ++ more)

theorem read_steady {fuel : Nat} (items : Steady readItems (fun _ _ => True) fuel)
    (members : Steady readMembers (fun _ _ => True) fuel) : Steady read Closed (fuel + 1) := by
  intro chars rest v found closed fuel' enough more
  obtain ⟨fuel', rfl⟩ := Nat.exists_eq_add_of_le' (Nat.one_le_of_lt enough)
  have enough : fuel ≤ fuel' := by omega
  rw [read.eq_def] at found
  simp only at found
  split at found
  · next chars =>
    obtain ⟨p, text, same⟩ := Option.map_eq_some_iff.mp found
    obtain ⟨rfl, rfl⟩ := Prod.mk.inj same
    rw [List.cons_append, read, JsonString.read_more text]
    rfl
  · next chars =>
    rw [List.cons_append, read]
    cases begins : skip chars with
    | nil => simp [begins, readItems_nil] at found
    | cons c tail =>
        rw [begins] at found
        rw [skip_more begins]
        split at found
        · next same =>
          obtain ⟨rfl, rfl⟩ := List.cons.inj same
          obtain ⟨rfl, rfl⟩ := Prod.mk.inj (Option.some.inj found)
          rfl
        · next open' =>
          obtain ⟨p, read, same⟩ := Option.map_eq_some_iff.mp found
          obtain ⟨rfl, rfl⟩ := Prod.mk.inj same
          have later := items _ _ _ read trivial fuel' enough more
          rw [List.cons_append] at later
          split
          · next same => exact absurd (by rw [(List.cons.inj same).1]) (open' tail)
          · rw [later]
            rfl
  · next chars =>
    rw [List.cons_append, read]
    cases begins : skip chars with
    | nil => simp [begins, readMembers_nil] at found
    | cons c tail =>
        rw [begins] at found
        rw [skip_more begins]
        split at found
        · next same =>
          obtain ⟨rfl, rfl⟩ := List.cons.inj same
          obtain ⟨rfl, rfl⟩ := Prod.mk.inj (Option.some.inj found)
          rfl
        · next open' =>
          obtain ⟨p, read, same⟩ := Option.map_eq_some_iff.mp found
          obtain ⟨rfl, rfl⟩ := Prod.mk.inj same
          have later := members _ _ _ read trivial fuel' enough more
          rw [List.cons_append] at later
          split
          · next same => exact absurd (by rw [(List.cons.inj same).1]) (open' tail)
          · rw [later]
            rfl
  · next _ notStr notArr notObj =>
    obtain ⟨s, token, same⟩ := Option.map_eq_some_iff.mp found
    obtain ⟨rfl, rfl⟩ := Prod.mk.inj same
    obtain ⟨ended, left⟩ := span_more closed more
    cases chars with
    | nil => exact absurd rfl closed
    | cons c tail =>
        rw [List.cons_append, read, ← List.cons_append, ended, left, token]
        · rfl
        · rintro rest ⟨⟩
          exact notStr _ rfl
        · rintro rest ⟨⟩
          exact notArr _ rfl
        · rintro rest ⟨⟩
          exact notObj _ rfl

/-- What follows an item or a member. -/
theorem ne_nil_of_skip {rest tail : List Char} {c : Char} (begins : skip rest = c :: tail) :
    rest ≠ [] := by
  rintro rfl
  cases begins

theorem readItems_steady {fuel : Nat} (value : Steady read Closed fuel)
    (items : Steady readItems (fun _ _ => True) fuel) :
    Steady readItems (fun _ _ => True) (fuel + 1) := by
  intro chars rest v found closed fuel' enough more
  obtain ⟨fuel', rfl⟩ := Nat.exists_eq_add_of_le' (Nat.one_le_of_lt enough)
  have enough : fuel ≤ fuel' := by omega
  rw [readItems] at found
  obtain ⟨p, first, found⟩ := Option.bind_eq_some_iff.mp found
  simp only at found
  split at found
  · next tail next =>
    obtain ⟨rfl, rfl⟩ := Prod.mk.inj (Option.some.inj found)
    have read := value _ _ _ first (closed_of_ne_nil (ne_nil_of_skip next)) fuel' enough more
    simp [readItems, read, skip_more next]
  · next tail next =>
    obtain ⟨q, later, same⟩ := Option.map_eq_some_iff.mp found
    obtain ⟨rfl, rfl⟩ := Prod.mk.inj same
    have read := value _ _ _ first (closed_of_ne_nil (ne_nil_of_skip next)) fuel' enough more
    obtain ⟨c, chars', begins⟩ := List.exists_cons_of_ne_nil (show skip tail ≠ [] by
      intro none
      rw [none, readItems_nil] at later
      cases later)
    rw [begins] at later
    have rest := items _ _ _ later trivial fuel' enough more
    rw [List.cons_append] at rest
    simp [readItems, read, skip_more next, skip_more begins, rest]
  · cases found

theorem readMembers_steady {fuel : Nat} (value : Steady read Closed fuel)
    (members : Steady readMembers (fun _ _ => True) fuel) :
    Steady readMembers (fun _ _ => True) (fuel + 1) := by
  intro chars rest v found closed fuel' enough more
  obtain ⟨fuel', rfl⟩ := Nat.exists_eq_add_of_le' (Nat.one_le_of_lt enough)
  have enough : fuel ≤ fuel' := by omega
  rw [readMembers.eq_def] at found
  simp only at found
  split at found
  · next chars =>
    obtain ⟨key, name, found⟩ := Option.bind_eq_some_iff.mp found
    split at found
    · next colon =>
      obtain ⟨p, first, found⟩ := Option.bind_eq_some_iff.mp found
      obtain ⟨c, chars', opens⟩ := List.exists_cons_of_ne_nil (show skip _ ≠ [] by
        intro none
        rw [none, read_nil] at first
        cases first)
      rw [opens] at first
      split at found
      · next tail next =>
        obtain ⟨rfl, rfl⟩ := Prod.mk.inj (Option.some.inj found)
        have read := value _ _ _ first (closed_of_ne_nil (ne_nil_of_skip next)) fuel' enough more
        rw [List.cons_append] at read
        simp [readMembers, JsonString.read_more name, skip_more colon, skip_more opens, read,
          skip_more next]
      · next tail next =>
        obtain ⟨q, later, same⟩ := Option.map_eq_some_iff.mp found
        obtain ⟨rfl, rfl⟩ := Prod.mk.inj same
        have read := value _ _ _ first (closed_of_ne_nil (ne_nil_of_skip next)) fuel' enough more
        obtain ⟨d, others, begins⟩ := List.exists_cons_of_ne_nil (show skip tail ≠ [] by
          intro none
          rw [none, readMembers_nil] at later
          cases later)
        rw [begins] at later
        have rest := members _ _ _ later trivial fuel' enough more
        rw [List.cons_append] at read rest
        simp [readMembers, JsonString.read_more name, skip_more colon, skip_more opens, read,
          skip_more next, skip_more begins, rest]
      · cases found
    · cases found
  · cases found

theorem all_steady (fuel : Nat) : Steady read Closed fuel ∧
    Steady readItems (fun _ _ => True) fuel ∧ Steady readMembers (fun _ _ => True) fuel := by
  induction fuel with
  | zero => exact ⟨by rintro _ _ _ ⟨⟩, by rintro _ _ _ ⟨⟩, by rintro _ _ _ ⟨⟩⟩
  | succ fuel ih =>
      obtain ⟨value, items, members⟩ := ih
      exact ⟨read_steady items members, readItems_steady value items,
        readMembers_steady value members⟩

/-! ## The front of an object -/

theorem read_brace {fuel : Nat} {chars rest : List Char} {v : JsonRaw}
    (found : read fuel ('\x7b' :: chars) = some (v, rest)) :
    ∃ members, v = .obj members ∧ ((∃ tail, members = [] ∧ skip chars = '\x7d' :: tail) ∨
      ∃ fuel, readMembers fuel (skip chars) = some (members, rest)) := by
  cases fuel with
  | zero => cases found
  | succ fuel =>
      rw [read] at found
      split at found
      · next tail closes =>
        obtain ⟨rfl, rfl⟩ := Prod.mk.inj (Option.some.inj found)
        exact ⟨[], rfl, .inl ⟨tail, rfl, closes⟩⟩
      · obtain ⟨p, read, same⟩ := Option.map_eq_some_iff.mp found
        obtain ⟨rfl, rfl⟩ := Prod.mk.inj same
        exact ⟨p.1, rfl, .inr ⟨fuel, read⟩⟩

theorem read_obj {fuel : Nat} {chars rest : List Char} {members : List (String × JsonRaw)}
    (found : read fuel chars = some (.obj members, rest)) : ∃ inside, chars = '\x7b' :: inside := by
  cases fuel with
  | zero => cases found
  | succ fuel =>
      rw [read.eq_def] at found
      simp only at found
      split at found
      · simp at found
      · next inside => split at found <;> simp at found
      · next inside => exact ⟨inside, rfl⟩
      · simp at found

theorem readMembers_key {fuel : Nat} {chars rest : List Char} {members : List (String × JsonRaw)}
    (found : readMembers fuel chars = some (members, rest)) :
    ∃ after key more tail, chars = '\x22' :: after ∧ JsonString.read after = some (key, more) ∧
      skip more = ':' :: tail := by
  cases fuel with
  | zero => cases found
  | succ fuel =>
      rw [readMembers.eq_def] at found
      simp only at found
      split at found
      · next after =>
        obtain ⟨⟨key, more⟩, name, found⟩ := Option.bind_eq_some_iff.mp found
        split at found
        · next tail colon => exact ⟨after, key, more, tail, rfl, name, colon⟩
        · cases found
      · cases found

/-- An object whose end is missing does not decode. -/
theorem loads_cut {style : JsonStyle} {members : List (String × JsonRaw)} {front cut : List Char}
    (whole : (obj members).write style = front ++ cut) (missing : cut ≠ []) :
    JsonValue.loads (String.ofList front) = none := by
  cases front with
  | nil => rfl
  | cons c front =>
      obtain ⟨inside, braces⟩ := write_obj style members
      obtain ⟨rfl, -⟩ := List.cons.inj (braces.symm.trans whole)
      have begins : skip ('\x7b' :: front) = '\x7b' :: front := skip_cons (by decide) front
      have length := congrArg List.length whole
      rw [List.length_append] at length
      simp only [JsonValue.loads, String.toList_ofList, begins]
      split
      · next v rest found =>
        obtain ⟨others, rfl, -⟩ := read_brace found
        have more := (all_steady _).1 _ _ _ found trivial _
          (show _ ≤ ((obj members).write style).length + 1 by omega) cut
        have back := readsBack style (obj members) (((obj members).write style).length + 1) []
          (by omega) (by rintro c ⟨⟩)
        rw [← whole] at more
        rw [List.append_nil, more] at back
        have rest := (Prod.mk.inj (Option.some.inj back)).2
        exact absurd (List.append_eq_nil_iff.mp rest).2 missing
      · rfl

/-! ## The inside of a string -/

/-- The text after an opening quote is not the key of a member. -/
def NoKey (chars : List Char) : Prop :=
  ∀ key rest, JsonString.read chars = some (key, rest) → ∀ tail, skip rest ≠ ':' :: tail

/-- What follows the text that starts here. -/
def keyed (chars : List Char) : Bool :=
  match JsonString.read chars with
  | some (_, rest) => (skip rest).head? = some ':'
  | none => false

instance (chars : List Char) : Decidable (NoKey chars) :=
  decidable_of_iff (keyed chars = false) <| by
    unfold keyed NoKey
    cases JsonString.read chars with
    | none => simp
    | some p =>
        obtain ⟨key, rest⟩ := p
        cases begins : skip rest <;> simp [begins]

theorem NoKey.of_append {chars more : List Char} (noKey : NoKey (chars ++ more)) : NoKey chars := by
  intro key rest found tail colon
  exact noKey key _ (JsonString.read_more found more) _ (skip_more colon more)

theorem skip_split (chars : List Char) :
    ∃ blanks, (∀ c ∈ blanks, blank c = true) ∧ chars = blanks ++ skip chars :=
  ⟨chars.takeWhile blank, fun _ member => List.mem_takeWhile_imp member,
    List.takeWhile_append_dropWhile.symm⟩

/-- An object that is not empty begins with the key of a member. -/
theorem loads_member {text : String} {v : JsonValue} (found : JsonValue.loads text = some v)
    {members : List (String × JsonRaw)} (object : v.raw = .obj members) (some : members ≠ []) :
    ∃ front blanks after, (∀ c ∈ front, blank c = true) ∧ (∀ c ∈ blanks, blank c = true) ∧
      text.toList = front ++ '\x7b' :: (blanks ++ '\x22' :: after) ∧ ¬NoKey after := by
  unfold JsonValue.loads at found
  split at found
  · next raw rest read =>
    split at found
    · obtain rfl := Option.some.inj found
      cases raw with
      | obj others =>
          obtain ⟨inside, opens⟩ := read_obj read
          rw [opens] at read
          obtain ⟨_, same, ⟨_, rfl, _⟩ | ⟨_, others'⟩⟩ := read_brace read
          · cases same
            exact absurd (JsonRaw.obj.inj object).symm some
          · obtain ⟨front, frontOnly, first⟩ := skip_split text.toList
            obtain ⟨blanks, blankOnly, second⟩ := skip_split inside
            obtain ⟨after, key, more, tail, quote, name, colon⟩ := readMembers_key others'
            rw [quote] at second
            rw [opens, second] at first
            exact ⟨front, blanks, after, frontOnly, blankOnly, first,
              fun noKey => noKey key more name tail colon⟩
      | _ => cases object
    · cases found
  · cases found

end JsonRaw

namespace JsonString

theorem escape_quote (ascii : Bool) (c : Char) :
    (escape ascii c).IsChain (fun c d => d = '\x22' → c = '\x5c') ∧
      ∃ first rest, escape ascii c = first :: rest ∧ first ≠ '\x22' := by
  have digit (n : Nat) : Nat.digitChar (n % 16) ≠ '\x22' := by
    have small : n % 16 < 16 := Nat.mod_lt n (by decide)
    generalize n % 16 = d at small
    interval_cases d <;> decide
  have listed : '\x22' ≠ '\x5c' := by decide
  unfold escape
  split_ifs with quote
  iterate 7
    · exact ⟨by simp, _, _, rfl, by decide⟩
  · unfold units
    split <;> simp [hex4, digit]
  · exact ⟨by simp, _, _, rfl, quote⟩

/-- A quote in an escaped text is behind a backslash. -/
theorem escape_quotes (ascii : Bool) (s : List Char) :
    (s.flatMap (escape ascii)).IsChain (fun c d => d = '\x22' → c = '\x5c') ∧
      ∀ c ∈ (s.flatMap (escape ascii)).head?, c ≠ '\x22' := by
  induction s with
  | nil => simp
  | cons c s ih =>
      obtain ⟨chain, first, rest, begins, plain⟩ := escape_quote ascii c
      rw [List.flatMap_cons, List.isChain_append]
      refine ⟨⟨chain, ih.1, fun _ _ d next same => absurd same (ih.2 d next)⟩, ?_⟩
      simpa [begins] using plain

end JsonString

namespace JsonRaw

/-- Between a brace in an escaped text and the first quote there is more than blanks, but for the
    closing quote. -/
theorem escape_brace (ascii : Bool) (s : List Char) {tail before blanks after : List Char}
    (noKey : NoKey tail) (blankOnly : ∀ c ∈ blanks, blank c = true)
    (whole : s.flatMap (JsonString.escape ascii) ++ '\x22' :: tail =
      before ++ '\x7b' :: (blanks ++ '\x22' :: after)) :
    NoKey after ∨ ∃ gap, before = s.flatMap (JsonString.escape ascii) ++ '\x22' :: gap ∧
      tail = gap ++ '\x7b' :: (blanks ++ '\x22' :: after) := by
  have noQuote : '\x22' ∉ blanks := fun member => absurd (blankOnly _ member) (by decide)
  have split : s.flatMap (JsonString.escape ascii) ++ '\x22' :: tail =
      (before ++ '\x7b' :: blanks) ++ '\x22' :: after := by simpa using whole
  obtain ⟨more, longer, rest⟩ | ⟨more, shorter, rest⟩ := List.append_eq_append_iff.mp split
  · cases more with
    | nil => exact .inl ((List.cons.inj rest).2 ▸ noKey)
    | cons c more =>
        -- the brace stands behind the closing quote
        obtain ⟨rfl, rest⟩ := List.cons.inj rest
        obtain ⟨gap, -, behind⟩ | ⟨gap, before, behind⟩ := List.append_eq_append_iff.mp longer
        · have inside : '\x22' ∈ '\x7b' :: blanks := by
            rw [behind]
            exact List.mem_append_right gap List.mem_cons_self
          rcases List.mem_cons.mp inside with same | member
          · exact absurd same (by decide)
          · exact absurd member noQuote
        · cases gap with
          | nil => exact absurd (List.cons.inj behind).1 (by decide)
          | cons d gap =>
              obtain ⟨rfl, rfl⟩ := List.cons.inj behind
              exact .inr ⟨gap, before, by simpa using rest⟩
  · cases more with
    | nil => exact .inl ((List.cons.inj rest).2 ▸ noKey)
    | cons c more =>
        -- the quote would have no backslash in front of it
        obtain ⟨rfl, -⟩ := List.cons.inj rest
        have chain := (JsonString.escape_quotes ascii s).1
        obtain ⟨front, last, ends⟩ := List.eq_nil_or_concat ('\x7b' :: blanks) |>.resolve_left
          (List.cons_ne_nil _ _)
        rw [List.concat_eq_append] at ends
        have inside : last ∈ '\x7b' :: blanks := by simp [ends]
        rw [shorter, ends, ← List.append_assoc, List.append_assoc, List.singleton_append,
          List.isChain_append_cons_cons] at chain
        have backslash := chain.2.1 rfl
        rcases List.mem_cons.mp inside with brace | member
        · exact absurd (backslash.symm.trans brace) (by decide)
        · exact absurd (backslash ▸ blankOnly _ member) (by decide)

theorem noKey_more {chars : List Char} {key : String} {c : Char} {tail : List Char}
    (read : JsonString.read chars = some (key, [])) (visible : blank c = false) (other : c ≠ ':') :
    NoKey (chars ++ c :: tail) := by
  intro key' rest found later colon
  have more := JsonString.read_more read (c :: tail)
  rw [List.nil_append, found] at more
  obtain ⟨-, rfl⟩ := Prod.mk.inj (Option.some.inj more)
  rw [skip_cons visible] at colon
  exact other (List.cons.inj colon).1

end JsonRaw
