import DuraLLM.Lib.JsonLines
import DuraLLM.Streaming.RoundTrip

/-! # Data lines of a buffered stream

A whole stream that has been read as one body is split into lines again, and
the data lines are decoded one by one.  A line whose data does not decode is
passed over without a word.  The lines are split at the separators of Unicode
too, which a payload may hold as they are: such a payload is lost.
-/

namespace DuraLLM

open Text JsonRaw

/-- What a data line carries. -/
def lineData (rawLine : String) : Option String :=
  (afterPrefix "data:" (strip rawLine)).map strip

/-- The object that a data line carries. -/
def lineObject (rawLine : String) : Option (List (String × JsonRaw)) :=
  match (lineData rawLine).bind JsonValue.loads with
  | some ⟨.obj members, _⟩ => some members
  | _ => none

/-- No member arrives with this line. -/
def Hollow (rawLine : String) : Prop := ∀ members, lineObject rawLine = some members → members = []

/-! ## Stripping -/

theorem afterPrefix_toList {start text rest : String} (cut : afterPrefix start text = some rest) :
    text.toList = start.toList ++ rest.toList := by
  obtain ⟨chars, found, rfl⟩ := Option.map_eq_some_iff.mp cut
  obtain ⟨front, same, equal⟩ := List.dropPrefix?_eq_some_iff.mp found
  rw [String.toList_ofList, same, beq_iff_eq.mp equal]

theorem rdropWhile_visible (front chars : List Char) {c : Char} (visible : isSpace c = false) :
    (front ++ c :: chars).rdropWhile isSpace = front ++ c :: chars.rdropWhile isSpace := by
  induction chars using List.reverseRecOn with
  | nil => exact List.rdropWhile_concat_neg _ _ _ (by simp [visible])
  | append_singleton chars d ih =>
      rw [← List.cons_append, ← List.append_assoc]
      by_cases blank : isSpace d = true
      · rw [List.rdropWhile_concat_pos _ _ _ blank, List.rdropWhile_concat_pos _ _ _ blank, ih]
      · rw [List.rdropWhile_concat_neg _ _ _ blank, List.rdropWhile_concat_neg _ _ _ blank]
        simp

/-- The data of a line that begins like an object, up to the blanks at the end. -/
theorem lineData_brace (chars : List Char) :
    lineData (String.ofList ("data: ".toList ++ '\x7b' :: chars)) =
      some (String.ofList ('\x7b' :: chars.rdropWhile isSpace)) := by
  have brace : isSpace '\x7b' = false := rfl
  have letter : isSpace 'd' = false := rfl
  have outer : strip (String.ofList ("data: ".toList ++ '\x7b' :: chars)) =
      "data:" ++ String.ofList (' ' :: '\x7b' :: chars.rdropWhile isSpace) := by
    have begins : ("data: ".toList ++ '\x7b' :: chars).dropWhile isSpace =
        "data: ".toList ++ '\x7b' :: chars := by simp [letter]
    have text : (String.ofList ("data: ".toList ++ '\x7b' :: chars)).toList =
        "data: ".toList ++ '\x7b' :: chars := String.toList_ofList
    rw [strip, text, begins, rdropWhile_visible _ _ brace]
    apply String.toList_injective
    simp
  have inner : strip (String.ofList (' ' :: '\x7b' :: chars.rdropWhile isSpace)) =
      String.ofList ('\x7b' :: chars.rdropWhile isSpace) := by
    have kept := rdropWhile_visible [] (chars.rdropWhile isSpace) brace
    rw [List.rdropWhile_idempotent] at kept
    have blank : isSpace ' ' = true := rfl
    rw [strip, String.toList_ofList, List.dropWhile_cons_of_pos blank,
      List.dropWhile_cons_of_neg (by simp [brace])]
    exact congrArg String.ofList kept
  rw [lineData, outer, afterPrefix_append, Option.map_some, inner]

/-! ## Frames -/

theorem frame_chars (data rest : List Char) :
    (dataFrame (String.ofList data)).toList ++ rest =
      ("data: ".toList ++ data) ++ '\n' :: ('\n' :: rest) := by
  simp [dataFrame]

theorem data_oneLine {data : List Char} (one : OneLine data) :
    OneLine ("data: ".toList ++ data) := by
  apply OneLine.append _ one
  simp [OneLine, isLineBreak]

/-- A frame whose payload stays on its line. -/
theorem lines_frame {data : List Char} (one : OneLine data) (rest : List Char) :
    lines ((dataFrame (String.ofList data)).toList ++ rest) =
      ("data: ".toList ++ data) :: [] :: lines rest := by
  have newline : isLineBreak '\n' = true ∧ '\n' ≠ '\r' := by decide
  have blank := lines_append (show OneLine [] by simp [OneLine]) newline.1 newline.2 rest
  rw [frame_chars, lines_append (data_oneLine one) newline.1 newline.2]
  exact congrArg (_ :: ·) blank

theorem lineObject_write (style : JsonStyle) (members : List (String × JsonRaw)) :
    lineObject (String.ofList ("data: ".toList ++ (obj members).write style)) =
      some (sortedMembers members) := by
  obtain ⟨inside, braces⟩ := write_obj style members
  have close : isSpace '\x7d' = false := rfl
  have kept : (inside ++ ['\x7d']).rdropWhile isSpace = inside ++ ['\x7d'] :=
    List.rdropWhile_concat_neg _ _ _ (by simp [close])
  have loads := loads_write style (.obj members)
  rw [braces] at loads ⊢
  rw [lineObject, lineData_brace, kept, Option.bind_some, loads]
  rfl

/-! ## Torn frames -/

theorem hollow_of_none {rawLine : String} (nothing : lineObject rawLine = none) :
    Hollow rawLine := by
  intro members found
  cases nothing.symm.trans found

/-- Whatever piece of the text comes as a line, no member arrives with it. -/
def Mute (text : List Char) : Prop := ∀ piece, piece <:+: text → Hollow (String.ofList piece)

theorem strip_split (text : String) : ∃ front back, (∀ c ∈ front, isSpace c = true) ∧
    text.toList = front ++ (strip text).toList ++ back := by
  refine ⟨text.toList.takeWhile isSpace, (text.toList.dropWhile isSpace).rtakeWhile isSpace,
    fun _ member => List.mem_takeWhile_imp member, ?_⟩
  rw [strip, String.toList_ofList, List.append_assoc, List.rdropWhile_append_rtakeWhile,
    List.takeWhile_append_dropWhile]

/-- In front of the data there are the letters of the field and blanks. -/
theorem lineData_split {rawLine data : String} (found : lineData rawLine = some data) :
    ∃ front back, 'd' ∈ front ∧ '\x22' ∉ front ∧ rawLine.toList = front ++ data.toList ++ back := by
  obtain ⟨rest, cut, rfl⟩ := Option.map_eq_some_iff.mp found
  obtain ⟨outer, outerEnd, outerBlank, whole⟩ := strip_split rawLine
  obtain ⟨inner, innerEnd, innerBlank, inside⟩ := strip_split rest
  have field := afterPrefix_toList cut
  refine ⟨outer ++ ("data:".toList ++ inner), innerEnd ++ outerEnd, by simp, ?_, ?_⟩
  · have noQuote (chars : List Char) (blank : ∀ c ∈ chars, isSpace c = true) : '\x22' ∉ chars :=
      fun member => absurd (blank _ member) (by decide)
    simp [noQuote outer outerBlank, noQuote inner innerBlank]
  · rw [whole, field, inside]
    simp

/-- A line that brings a member has a key behind a brace, and no quote in front of that. -/
theorem exists_member {rawLine : String} (loud : ¬Hollow rawLine) :
    ∃ front blanks after, rawLine.toList = front ++ '\x7b' :: (blanks ++ '\x22' :: after) ∧
      'd' ∈ front ∧ '\x22' ∉ front ∧ (∀ c ∈ blanks, blank c = true) ∧ ¬NoKey after := by
  simp only [Hollow, not_forall] at loud
  obtain ⟨members, found, some⟩ := loud
  unfold lineObject at found
  split at found
  · next others canonical loaded =>
    obtain rfl := Option.some.inj found
    obtain ⟨data, line, loads⟩ := Option.bind_eq_some_iff.mp loaded
    obtain ⟨outer, back, letter, noQuote, whole⟩ := lineData_split line
    obtain ⟨front, blanks, after, frontOnly, blankOnly, text, key⟩ := loads_member loads rfl some
    refine ⟨outer ++ front, blanks, after ++ back, by rw [whole, text]; simp, by simp [letter], ?_,
      blankOnly, fun noKey => key noKey.of_append⟩
    have blankFront : '\x22' ∉ front := fun member => absurd (frontOnly _ member) (by decide)
    simp [noQuote, blankFront]
  · cases found

theorem mute_of_letter {text : List Char} (absent : 'd' ∉ text) : Mute text := by
  intro piece inside
  by_contra loud
  obtain ⟨front, blanks, after, whole, letter, -⟩ := exists_member loud
  rw [String.toList_ofList] at whole
  exact absent (inside.subset (by simp [whole, letter]))

/-- A piece that begins in front of a quote has the quote in front of its brace. -/
theorem split_quote {left front text gap : List Char} (noQuote : '\x22' ∉ front)
    (same : left ++ front = text ++ '\x22' :: gap) :
    ∃ more, left = text ++ '\x22' :: more ∧ gap = more ++ front := by
  obtain ⟨before, -, rest⟩ | ⟨before, rfl, rest⟩ := List.append_eq_append_iff.mp same
  · exact absurd (by simp [rest]) noQuote
  · cases before with
    | nil => exact absurd (by rw [show front = '\x22' :: gap from rest.symm]; simp) noQuote
    | cons c before =>
        obtain ⟨rfl, behind⟩ := List.cons.inj rest
        exact ⟨before, rfl, behind⟩

/-- What is behind a quote alone is heard. -/
theorem Mute.behind {text tail : List Char} (mute : Mute tail) (flat : '\x7b' ∉ text) :
    Mute (text ++ '\x22' :: tail) := by
  intro piece inside
  by_contra loud
  obtain ⟨front, blanks, after, whole, -, noQuote, -⟩ := exists_member loud
  obtain ⟨left, right, same⟩ := inside
  rw [String.toList_ofList] at whole
  have brace : text ++ '\x22' :: tail =
      (left ++ front) ++ '\x7b' :: (blanks ++ '\x22' :: after ++ right) := by
    rw [← same, whole]
    simp
  obtain ⟨gap, begun, rest⟩ | ⟨gap, rfl, rest⟩ := List.append_eq_append_iff.mp brace
  · cases gap with
    | nil => exact absurd (List.cons.inj rest).1 (by decide)
    | cons c gap =>
        obtain ⟨rfl, behind⟩ := List.cons.inj rest
        obtain ⟨more, -, rfl⟩ := split_quote noQuote begun
        exact loud (mute piece ⟨more, right, by rw [whole, behind]; simp⟩)
  · cases gap with
    | nil => exact absurd (List.cons.inj rest).1 (by decide)
    | cons c gap =>
        obtain ⟨rfl, -⟩ := List.cons.inj rest
        simp at flat

/-- An escaped text with its closing quote, and what follows it. -/
theorem Mute.escape {tail : List Char} (mute : Mute tail) (noKey : NoKey tail) (ascii : Bool)
    (s : List Char) : Mute (s.flatMap (JsonString.escape ascii) ++ '\x22' :: tail) := by
  intro piece inside
  by_contra loud
  obtain ⟨front, blanks, after, whole, -, noQuote, blankOnly, key⟩ := exists_member loud
  obtain ⟨left, right, same⟩ := inside
  rw [String.toList_ofList] at whole
  have brace : s.flatMap (JsonString.escape ascii) ++ '\x22' :: tail =
      (left ++ front) ++ '\x7b' :: (blanks ++ '\x22' :: (after ++ right)) := by
    rw [← same, whole]
    simp
  obtain noKey | ⟨gap, begun, rest⟩ := escape_brace ascii s noKey blankOnly brace
  · exact key noKey.of_append
  · obtain ⟨more, rfl, rfl⟩ := split_quote noQuote begun
    exact loud (mute piece ⟨more, right, by rw [whole, rest]; simp⟩)

/-- The first line of a torn frame holds an object without its end. -/
theorem hollow_front {style : JsonStyle} {members : List (String × JsonRaw)}
    {front cut : List Char} (whole : (obj members).write style = front ++ cut) (some : front ≠ [])
    (missing : cut ≠ []) : Hollow (String.ofList ("data: ".toList ++ front)) := by
  obtain ⟨c, chars, rfl⟩ := List.exists_cons_of_ne_nil some
  obtain ⟨inside, braces⟩ := write_obj style members
  obtain ⟨rfl, -⟩ := List.cons.inj (braces.symm.trans whole)
  have split : '\x7b' :: chars =
      ('\x7b' :: chars.rdropWhile isSpace) ++ chars.rtakeWhile isSpace := by
    rw [List.cons_append, List.rdropWhile_append_rtakeWhile]
  rw [split, List.append_assoc] at whole
  apply hollow_of_none
  rw [lineObject, lineData_brace, Option.bind_some, loads_cut whole (by simp [missing])]

theorem hollow_blank : Hollow (String.ofList []) := hollow_of_none rfl

/-- A payload with a separator in one of its texts goes under. -/
theorem lines_torn {members : List (String × JsonRaw)} {front tail : List Char} {s : String}
    (whole : (obj members).write .verbatim =
      front ++ (s.toList.flatMap (JsonString.escape false) ++ '\x22' :: tail))
    (begun : front ≠ []) (one : OneLine front) (torn : ¬JsonString.Untorn s)
    (mute : Mute tail) (noKey : NoKey tail) (rest : List Char) :
    ∃ pieces,
      lines ((dataFrame (payloadText (.obj members))).toList ++ rest) = pieces ++ lines rest ∧
        ∀ piece ∈ pieces, Hollow (String.ofList piece) := by
  have mute := mute.escape noKey false s.toList
  obtain ⟨c, member, separator⟩ := JsonString.escape_breaks torn
  generalize s.toList.flatMap (JsonString.escape false) = text at whole mute member
  have visible := write_visible .verbatim (.obj members)
  rw [whole] at visible
  have separates (d : Char) (inside : d ∈ text) : isLineBreak d = JsonString.isSeparator d :=
    JsonString.separator_iff (visible d (by simp [inside]))
  have broken : ¬OneLine text := by
    intro all
    cases (all c member).symm.trans ((separates c member).trans separator)
  obtain ⟨line, d, more, rfl, clean, ends⟩ := exists_break broken
  have other : d ≠ '\r' := by
    rintro rfl
    cases (separates _ (by simp)).symm.trans ends
  have single : '\r' ∉ more ++ '\x22' :: tail := by
    intro inside
    have low := visible '\r' (by simp only [List.mem_append, List.mem_cons] at inside ⊢; grind)
    exact absurd low (by decide)
  obtain ⟨pieces, same, parts⟩ := lines_pieces single ('\n' :: rest)
  have newline : lines ('\n' :: rest) = [] :: lines rest :=
    lines_append (show OneLine [] by simp [OneLine]) rfl (by decide) rest
  have chars : (dataFrame (payloadText (.obj members))).toList ++ rest =
      ("data: ".toList ++ (front ++ line)) ++
        d :: ((more ++ '\x22' :: tail) ++ '\n' :: '\n' :: rest) := by
    rw [payloadText, frame_chars, whole]
    simp
  refine ⟨("data: ".toList ++ (front ++ line)) :: (pieces ++ [[]]), ?_, ?_⟩
  · rw [chars, lines_append (data_oneLine (one.append clean)) ends other, same, newline]
    simp
  · intro piece inside
    simp only [List.mem_cons, List.mem_append, List.not_mem_nil, or_false] at inside
    rcases inside with rfl | inside | rfl
    · have cut : (obj members).write .verbatim =
          (front ++ line) ++ d :: (more ++ '\x22' :: tail) := by
        rw [whole]
        simp
      exact hollow_front cut (by simp [begun]) (by simp)
    · have part : piece <:+: (line ++ d :: more) ++ '\x22' :: tail :=
        (parts piece inside).trans ⟨line ++ [d], [], by simp⟩
      exact mute piece (by simpa using part)
    · exact hollow_blank

/-- The same for payloads with a place for the text, which are on one line without it. -/
theorem lines_torn_hole {α : Type} {members : α → List (String × JsonRaw)} {text : α → String}
    {tail : α → List Char} (hole : Hole (fun a => .obj (members a)) text tail) {a : α}
    (safe : ∃ a, text a = "" ∧ UntornMembers (members a)) (mute : Mute (tail a)) (noKey : NoKey (tail a))
    (torn : ¬JsonString.Untorn (text a)) (rest : List Char) :
    ∃ pieces,
      lines ((dataFrame (payloadText (.obj (members a)))).toList ++ rest) = pieces ++ lines rest ∧
        ∀ piece ∈ pieces, Hollow (String.ofList piece) := by
  obtain ⟨front, written⟩ := hole
  obtain ⟨b, empty, untorn⟩ := safe
  have without := written b
  rw [empty] at without
  have begun : front ≠ [] := by
    rintro rfl
    obtain ⟨inside, braces⟩ := write_obj .verbatim (members b)
    exact absurd (List.cons.inj (braces.symm.trans without)).1 (by decide)
  have one : OneLine ((obj (members b)).write .verbatim) := write_oneLine _ (.inr untorn)
  rw [without] at one
  exact lines_torn (written a) begun one.of_append.1 torn mute noKey rest

end DuraLLM
