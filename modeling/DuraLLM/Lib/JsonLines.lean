import DuraLLM.Lib.JsonPieces
import DuraLLM.Lib.Lines

/-! # JSON texts as lines

Every vertical control is escaped in a JSON text.  The separators of Unicode
are not when the characters are written as they are, so a text with one of
these does not stay on one line.
-/

open Text

namespace JsonString

/-- A line end that is written as it is. -/
def isSeparator (c : Char) : Bool :=
  let n := c.toNat
  n == 0x85 || n == 0x2028 || n == 0x2029

/-- The text stays on one line wherever it is written. -/
def Untorn (s : String) : Prop := ∀ c ∈ s.toList, isSeparator c = false

instance (s : String) : Decidable (Untorn s) :=
  decidable_of_iff ((s.toList.all fun c => !isSeparator c) = true) (by simp [Untorn])

theorem not_break {c : Char} (low : 32 ≤ c.toNat) (high : c.toNat ≤ 126) :
    isLineBreak c = false := by
  simp only [isLineBreak, Bool.or_eq_false_iff, Bool.and_eq_false_iff, decide_eq_false_iff_not,
    beq_eq_false_iff_ne]
  omega

theorem separator_iff {c : Char} (visible : 32 ≤ c.toNat) : isLineBreak c = isSeparator c := by
  have low : decide (c.toNat ≤ 0x0d) = false ∧ decide (c.toNat ≤ 0x1e) = false := by
    simp only [decide_eq_false_iff_not]
    omega
  simp [isLineBreak, isSeparator, low.1, low.2]

/-- Escapes are printable; what is not escaped is the character itself. -/
theorem escape_chars (ascii : Bool) {c d : Char} (member : d ∈ escape ascii c) :
    (32 ≤ d.toNat ∧ d.toNat ≤ 126) ∨ ascii = false ∧ d = c := by
  have digit (n : Nat) : (Nat.digitChar (n % 16)).toNat ≤ 126 := by
    have small : n % 16 < 16 := Nat.mod_lt n (by decide)
    generalize n % 16 = k at small
    interval_cases k <;> decide
  have visible := escape_visible ascii c d member
  unfold escape at member
  split_ifs at member with _ _ _ _ _ _ _ escaped
  iterate 7
    next =>
      simp only [List.mem_cons, List.not_mem_nil, or_false] at member
      rcases member with rfl | rfl <;> exact .inl (by decide)
  · obtain ⟨unit, -, member⟩ := List.mem_flatMap.mp member
    simp only [hex4, List.mem_cons, List.not_mem_nil, or_false] at member
    rcases member with rfl | rfl | rfl | rfl | rfl | rfl
    · exact .inl (by decide)
    · exact .inl (by decide)
    all_goals exact .inl ⟨visible, digit _⟩
  · obtain rfl := List.mem_singleton.mp member
    cases ascii with
    | false => exact .inr ⟨rfl, rfl⟩
    | true => exact .inl ⟨visible, by simp at escaped; omega⟩

theorem escape_oneLine {ascii : Bool} {s : String} (safe : ascii = true ∨ Untorn s) :
    OneLine (s.toList.flatMap (escape ascii)) := by
  intro d member
  obtain ⟨c, inside, escaped⟩ := List.mem_flatMap.mp member
  have visible := escape_visible ascii c d escaped
  rcases escape_chars ascii escaped with ⟨low, high⟩ | ⟨verbatim, rfl⟩
  · exact not_break low high
  · cases safe with
    | inl ascii => cases verbatim.symm.trans ascii
    | inr untorn => rw [separator_iff visible, untorn d inside]

theorem isSeparator_ge {c : Char} (separator : isSeparator c = true) : 128 ≤ c.toNat := by
  simp only [isSeparator, Bool.or_eq_true, beq_iff_eq] at separator
  omega

/-- A separator is found again in the escaped text. -/
theorem escape_breaks {s : String} (torn : ¬Untorn s) :
    ∃ c ∈ s.toList.flatMap (escape false), isSeparator c = true := by
  simp only [Untorn, not_forall, Bool.not_eq_false] at torn
  obtain ⟨c, member, separator⟩ := torn
  have high := isSeparator_ge separator
  have other {d : Char} (low : d.toNat < 128) : c ≠ d := by
    rintro rfl
    omega
  have same : escape false c = [c] := by
    have visible : ¬c.toNat < 32 := by omega
    simp [escape, other, visible]
  exact ⟨c, List.mem_flatMap.mpr ⟨c, member, by simp [same]⟩, separator⟩

theorem write_oneLine {ascii : Bool} {s : String} (safe : ascii = true ∨ Untorn s) :
    OneLine (write ascii s) := by
  have quote : isLineBreak '\x22' = false := rfl
  intro c member
  simp only [write, List.mem_cons, List.mem_append, List.not_mem_nil, or_false] at member
  rcases member with rfl | inside | rfl
  · exact quote
  · exact escape_oneLine safe c inside
  · exact quote

end JsonString

namespace JsonRaw

mutual

/-- No text in the value tears the line it is written on. -/
def Untorn : JsonRaw → Prop
  | .scalar _ => True
  | .str s => JsonString.Untorn s
  | .arr items => UntornItems items
  | .obj members => UntornMembers members

def UntornItems : List JsonRaw → Prop
  | [] => True
  | v :: items => v.Untorn ∧ UntornItems items

def UntornMembers : List (String × JsonRaw) → Prop
  | [] => True
  | (key, v) :: members => JsonString.Untorn key ∧ v.Untorn ∧ UntornMembers members

end

theorem untornItems_map {α : Type} {f : α → JsonRaw} {items : List α} :
    UntornItems (items.map f) ↔ ∀ item ∈ items, (f item).Untorn := by
  induction items with
  | nil => simp [UntornItems]
  | cons item items ih => simp [UntornItems, ih]

theorem untornMembers_append {front back : List (String × JsonRaw)} :
    UntornMembers (front ++ back) ↔ UntornMembers front ∧ UntornMembers back := by
  induction front with
  | nil => simp [UntornMembers]
  | cons member front ih => simp [UntornMembers, ih, and_assoc]

theorem comma_oneLine (style : JsonStyle) : OneLine style.comma := by
  cases style <;> simp [JsonStyle.comma, OneLine, isLineBreak]

theorem colon_oneLine (style : JsonStyle) : OneLine style.colon := by
  cases style <;> simp [JsonStyle.colon, OneLine, isLineBreak]

theorem token_oneLine {c : Char} (token : JsonScalar.tokenChar c = true) :
    isLineBreak c = false := by
  have upper : c.isUpper = decide (c.val ≥ 'A'.val ∧ c.val ≤ 'Z'.val) := rfl
  have lower : c.isLower = (decide (c.val ≥ 'a'.val) && decide (c.val ≤ 'z'.val)) := rfl
  have alphanum : c.isAlphanum = (c.isUpper || c.isLower || c.isDigit) := rfl
  refine JsonString.not_break (JsonScalar.tokenChar_visible token) ?_
  simp only [JsonScalar.tokenChar, alphanum, upper, lower, Char.isDigit, Bool.or_eq_true,
    Bool.and_eq_true, decide_eq_true_eq, ge_iff_le, UInt32.le_iff_toNat_le] at token
  have value : c.val.toNat = c.toNat := rfl
  have letters : 'Z'.val.toNat = 90 ∧ 'z'.val.toNat = 122 ∧ '9'.val.toNat = 57 := by decide
  rcases token with (((((_ | _) | _) | rfl) | rfl) | rfl) <;> first | omega | decide

variable {style : JsonStyle}

mutual

theorem write_oneLine : ∀ v : JsonRaw, style.ascii = true ∨ v.Untorn → OneLine (v.write style)
  | .scalar s, _ => by
      intro c member
      exact token_oneLine (s.text_token c (by simpa only [write] using member))
  | .str s, safe => by
      rw [write]
      exact JsonString.write_oneLine safe
  | .arr [], _ => by simp [write, OneLine, isLineBreak]
  | .arr (v :: items), safe => by
      rw [write]
      have first := write_oneLine v (safe.imp_right And.left)
      have rest := writeItems_oneLine items (safe.imp_right And.right)
      exact OneLine.append (s := ['[']) (by simp [OneLine, isLineBreak]) (first.append rest)
  | .obj [], _ => by simp [write, OneLine, isLineBreak]
  | .obj ((key, v) :: members), safe => by
      rw [write]
      have name := JsonString.write_oneLine (safe.imp_right And.left)
      have first := write_oneLine v (safe.imp_right fun untorn => untorn.2.1)
      have rest := writeMembers_oneLine members (safe.imp_right fun untorn => untorn.2.2)
      exact OneLine.append (s := ['\x7b']) (by simp [OneLine, isLineBreak])
        (((name.append (colon_oneLine style)).append first).append rest)

theorem writeItems_oneLine :
    ∀ items : List JsonRaw, style.ascii = true ∨ UntornItems items →
      OneLine (writeItems style items)
  | [], _ => by simp [writeItems, OneLine, isLineBreak]
  | v :: items, safe => by
      rw [writeItems]
      have first := write_oneLine v (safe.imp_right And.left)
      have rest := writeItems_oneLine items (safe.imp_right And.right)
      exact ((comma_oneLine style).append first).append rest

theorem writeMembers_oneLine :
    ∀ members : List (String × JsonRaw), style.ascii = true ∨ UntornMembers members →
      OneLine (writeMembers style members)
  | [], _ => by simp [writeMembers, OneLine, isLineBreak]
  | (key, v) :: members, safe => by
      rw [writeMembers]
      have name := JsonString.write_oneLine (safe.imp_right And.left)
      have first := write_oneLine v (safe.imp_right fun untorn => untorn.2.1)
      have rest := writeMembers_oneLine members (safe.imp_right fun untorn => untorn.2.2)
      have named := ((comma_oneLine style).append name).append (colon_oneLine style)
      exact (named.append first).append rest

end

/-! ## Where a text stands -/

section Holes

variable {α : Type} {w : α → JsonRaw} {text : α → String} {tail : α → List Char}

/-- Values with a text in them, what is written behind that text, and the same in front of it. -/
def Hole (w : α → JsonRaw) (text : α → String) (tail : α → List Char) : Prop :=
  ∃ front, ∀ a, (w a).write .verbatim =
    front ++ ((text a).toList.flatMap (JsonString.escape false) ++ '\x22' :: tail a)

theorem hole_str (text : α → String) : Hole (fun a => .str (text a)) text fun _ => [] :=
  ⟨['\x22'], fun a => by simp [write, JsonString.write]; rfl⟩

theorem Hole.item (hole : Hole w text tail) :
    Hole (fun a => .arr [w a]) text fun a => tail a ++ [']'] := by
  obtain ⟨front, same⟩ := hole
  exact ⟨'[' :: front, fun a => by simp [write, writeItems, same]⟩

theorem writeMembers_member (style : JsonStyle) (before : List (String × JsonRaw)) (key : String) :
    ∃ front, ∀ v after, writeMembers style (before ++ (key, v) :: after) =
      front ++ (v.write style ++ writeMembers style after) := by
  induction before with
  | nil => exact ⟨_, fun v after => by rw [List.nil_append, writeMembers, List.append_assoc]⟩
  | cons member before ih =>
      obtain ⟨front, same⟩ := ih
      exact ⟨_, fun v after => by rw [List.cons_append, writeMembers, same, ← List.append_assoc]⟩

/-- What is written in front of the value of a member. -/
theorem write_member (style : JsonStyle) (before : List (String × JsonRaw)) (key : String) :
    ∃ front, ∀ v after, (obj (before ++ (key, v) :: after)).write style =
      front ++ (v.write style ++ writeMembers style after) := by
  cases before with
  | nil =>
      exact ⟨_, fun v after => by
        rw [List.nil_append, write, List.append_assoc, ← List.cons_append]⟩
  | cons member before =>
      obtain ⟨front, same⟩ := writeMembers_member style before key
      exact ⟨_, fun v after => by
        rw [List.cons_append, write, same, ← List.append_assoc, ← List.cons_append]⟩

theorem Hole.member (hole : Hole w text tail) (before : List (String × JsonRaw)) (key : String)
    (after : α → List (String × JsonRaw)) :
    Hole (fun a => .obj (before ++ (key, w a) :: after a)) text fun a =>
      tail a ++ writeMembers .verbatim (after a) := by
  obtain ⟨front, same⟩ := hole
  obtain ⟨outer, written⟩ := write_member .verbatim before key
  exact ⟨outer ++ front, fun a => by rw [written, same]; simp⟩

end Holes

end JsonRaw
