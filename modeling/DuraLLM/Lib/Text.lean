import Mathlib.Data.String.Basic

/-! # Texts that are put together from parts

An identifier may be a sequence of segments with colons between them, and a
message a sequence of lines.  Here is what splitting gives back, and what
lower-casing does to identifiers.
-/

namespace Text

open String

/-! ## Segments -/

/-- The end of a text is behind all its characters. -/
theorem atEnd_valid (l r : List Char) :
    Pos.Raw.atEnd (ofList (l ++ r)) ⟨utf8Len l⟩ = true ↔ r = [] := by
  rw [atEnd_iff, rawEndPos_ofList, Pos.Raw.mk_le_mk, utf8Len_append]
  constructor
  · intro past
    exact utf8Len_eq_zero.mp (by omega)
  · intro none
    simp [none]

/-- `l` has been split, `m` is the segment so far, and `r` is left. -/
theorem splitOnAux_colon (l m r : List Char) (acc : List String) :
    splitOnAux (ofList (l ++ (m ++ r))) ":" ⟨utf8Len l⟩ ⟨utf8Len (l ++ m)⟩ 0 acc =
      acc.reverse ++ (List.splitOnPPrepend (· == ':') r m.reverse).map ofList := by
  induction r generalizing l m acc with
  | nil =>
      have whole := extract_of_valid l m []
      rw [splitOnAux, if_pos]
      · simpa [utf8Len_append] using whole
      · simpa using (atEnd_valid (l ++ m) []).mpr rfl
  | cons c r ih =>
      have there := get_of_valid (l ++ m) (c :: r)
      have further := next_of_valid (l ++ m) c r
      have cut := extract_of_valid l m (c :: r)
      have more : ¬Pos.Raw.atEnd (ofList (l ++ m ++ c :: r)) ⟨utf8Len (l ++ m)⟩ = true :=
        fun past => List.cons_ne_nil c r ((atEnd_valid (l ++ m) (c :: r)).mp past)
      rw [← List.append_assoc, splitOnAux, if_neg more, there, further,
        List.splitOnPPrepend_cons_eq_if]
      by_cases same : c = ':'
      · subst same
        have found : ((':' :: r).headD default == Pos.Raw.get ":" 0) = true := rfl
        have size : utf8Len (l ++ m) + (':').utf8Size = utf8Len (l ++ m ++ [':']) := by
          simp [utf8Len_append, Nat.add_assoc]
        have rest := ih (l ++ m ++ [':']) [] (ofList m :: acc)
        rw [if_pos found, if_pos (by rfl), if_pos (by rfl), size]
        have back : (⟨utf8Len (l ++ m ++ [':'])⟩ : Pos.Raw).unoffsetBy (Pos.Raw.next ":" 0) =
          ⟨utf8Len l + utf8Len m⟩ := by
          rw [← size, utf8Len_append]
          rfl
        simp only [back, cut]
        simpa using rest
      · have kept : ¬((c :: r).headD default == Pos.Raw.get ":" 0) = true :=
          fun found => same (eq_of_beq found)
        have size : utf8Len (l ++ m) + c.utf8Size = utf8Len (l ++ (m ++ [c])) := by
          simp [utf8Len_append, Nat.add_assoc]
        have back : Pos.Raw.next (ofList (l ++ m ++ c :: r))
            ((⟨utf8Len (l ++ m)⟩ : Pos.Raw).unoffsetBy 0) = ⟨utf8Len (l ++ m) + c.utf8Size⟩ := further
        have rest := ih l (m ++ [c]) acc
        rw [if_neg kept, if_neg (by simpa using same), back, size]
        simpa using rest

theorem splitOn_colon (text : String) :
    text.splitOn ":" = (text.toList.splitOnP (· == ':')).map ofList := by
  simpa [splitOn] using splitOnAux_colon [] [] text.toList []

/-- `text.split(":")[-1]` -/
def lastSegment (text : String) : String := (text.splitOn ":").getLast?.getD ""

theorem mem_segment {α : Type} (p : α → Bool) (xs : List α) :
    ∀ segment ∈ xs.splitOnP p, ∀ x ∈ segment, p x = false := by
  induction xs with
  | nil => simp
  | cons x xs ih =>
      rw [List.splitOnP_cons_eq_if_modifyHead]
      split
      · simpa using ih
      · next inside =>
        obtain ⟨segment, rest, same⟩ := List.exists_cons_of_ne_nil (List.splitOnP_ne_nil p xs)
        rw [same] at ih ⊢
        intro piece member y here
        simp only [List.modifyHead_cons, List.mem_cons] at member
        cases member with
        | inl first =>
            subst first
            cases List.mem_cons.mp here with
            | inl here => simpa [here] using inside
            | inr here => exact ih segment List.mem_cons_self y here
        | inr later => exact ih piece (List.mem_cons_of_mem _ later) y here

theorem lastSegment_eq (text : String) :
    ∃ segment ∈ text.toList.splitOnP (· == ':'), lastSegment text = ofList segment := by
  have ends := List.getLast?_eq_some_getLast (List.splitOnP_ne_nil (· == ':') text.toList)
  refine ⟨_, List.getLast_mem (List.splitOnP_ne_nil (· == ':') text.toList), ?_⟩
  rw [lastSegment, splitOn_colon, List.getLast?_map, ends]
  rfl

/-- A segment has no colons. -/
theorem lastSegment_count (text : String) : (lastSegment text).toList.count ':' = 0 := by
  obtain ⟨segment, member, same⟩ := lastSegment_eq text
  rw [same, String.toList_ofList, List.count_eq_zero]
  intro colon
  have other := mem_segment (· == ':') text.toList segment member ':' colon
  simp at other

/-- What stands in front of a colon is cut off. -/
theorem lastSegment_qualified (scope text : String) :
    lastSegment (scope ++ ":" ++ text) = lastSegment text := by
  have cut : (scope ++ ":" ++ text).toList = scope.toList ++ ':' :: text.toList := by simp
  rw [lastSegment, lastSegment, splitOn_colon, splitOn_colon, cut,
    List.splitOnP_append_cons _ _ (by rfl), List.map_append, List.getLast?_append]
  cases ends : ((text.toList.splitOnP (· == ':')).map ofList).getLast? with
  | none => simp at ends
  | some segment => rfl

theorem lastSegment_of_no_colon {text : String} (plain : text.toList.count ':' = 0) :
    lastSegment text = text := by
  rw [lastSegment, splitOn_colon, List.splitOnP_eq_singleton]
  · simp
  · intro c member
    have absent := List.count_eq_zero.mp plain
    exact beq_false_of_ne fun same => absent (same ▸ member)

/-- A text is its own last segment when it has no colon. -/
theorem lastSegment_eq_self_iff (text : String) :
    lastSegment text = text ↔ text.toList.count ':' = 0 :=
  ⟨fun same => same ▸ lastSegment_count text, lastSegment_of_no_colon⟩

/-! ## Lines -/

/-- `"\n".join(lines)` -/
def joinLines (lines : List String) : String :=
  ofList (['\n'].intercalate (lines.map toList))

/-- `text.split("\n")` -/
def splitLines (text : String) : List String := (text.toList.splitOn '\n').map ofList

/-- No line has a line end in it. -/
def Unbroken (lines : List String) : Prop := ∀ line ∈ lines, '\n' ∉ line.toList

theorem splitLines_joinLines {lines : List String} (unbroken : Unbroken lines) (some : lines ≠ []) :
    splitLines (joinLines lines) = lines := by
  have clean : ∀ line ∈ lines.map toList, '\n' ∉ line := by
    intro line member
    obtain ⟨text, text_mem, rfl⟩ := List.mem_map.mp member
    exact unbroken text text_mem
  rw [splitLines, joinLines, toList_ofList, List.splitOn_intercalate '\n' clean (by simpa using some)]
  simp

end Text

/-! ## Letter case -/

/-- Lower-casing: every colon stays where it is, no other character turns into
    one, and a text of the ASCII alphabet is lowered as usual. -/
structure Casing where
  lower : String → String
  colons : ∀ text, (lower text).toList.count ':' = text.toList.count ':'
  plain : ∀ text, (∀ c ∈ text.toList, c.toNat < 128) → lower text = text.toLower

namespace Casing

theorem toLower_eq_colon (c : Char) : c.toLower = ':' ↔ c = ':' := by
  constructor
  · intro lowered
    by_contra other
    unfold Char.toLower at lowered
    split at lowered
    · next upper =>
      have low : 'A'.val.toNat ≤ c.val.toNat := UInt32.le_iff_toNat_le.mp upper.1
      have high : c.val.toNat ≤ 'Z'.val.toNat := UInt32.le_iff_toNat_le.mp upper.2
      have value : (c.val + ('a'.val - 'A'.val)).toNat = ':'.val.toNat :=
        congrArg (fun c => c.val.toNat) lowered
      rw [UInt32.toNat_add] at value
      have letters : 'A'.val.toNat = 65 ∧ 'Z'.val.toNat = 90 ∧ ':'.val.toNat = 58 ∧
        ('a'.val - 'A'.val).toNat = 32 := by decide
      omega
    · exact other lowered
  · rintro rfl
    rfl

/-- On the letters of the ASCII alphabet. -/
def ascii : Casing where
  lower := String.toLower
  colons text := by
    have lowered : text.toLower = text.map Char.toLower := rfl
    rw [lowered, String.toList_map, List.count, List.countP_map]
    refine List.countP_congr fun c _ => ?_
    simp [toLower_eq_colon]
  plain _ _ := rfl

variable (casing : Casing)

/-- What is put in front of a colon is not lost. -/
theorem qualified_ne (scope text : String) :
    casing.lower (scope ++ ":" ++ text) ≠ casing.lower text := by
  intro same
  have counts := congrArg (fun text => text.toList.count ':') same
  simp only [casing.colons, String.toList_append, List.count_append] at counts
  have one : (":" : String).toList.count ':' = 1 := rfl
  omega

theorem lastSegment_eq_iff (text : String) :
    casing.lower (Text.lastSegment text) = casing.lower text ↔ text.toList.count ':' = 0 := by
  constructor
  · intro same
    have counts := congrArg (fun text => text.toList.count ':') same
    simp only [casing.colons, Text.lastSegment_count] at counts
    exact counts.symm
  · intro plain
    rw [Text.lastSegment_of_no_colon plain]

end Casing
