import DuraLLM.Lib.JsonValue

/-! # JSON values in a dynamic language

What a program does with a decoded value whose shape it has not checked: it
looks up members, tests for emptiness, and raises where the value has the
wrong type.  A raised error is `none`.
-/

namespace JsonRaw

abbrev null : JsonRaw := .scalar .null

abbrev int (n : Int) : JsonRaw := .scalar (.int n)

/-- `bool(value)`.  A float is zero when no digit in front of its exponent says otherwise. -/
def truthy : JsonRaw → Bool
  | .scalar .null => false
  | .scalar (.bool b) => b
  | .scalar (.int n) => n ≠ 0
  | .scalar (.float text _) => (text.takeWhile (· ≠ 'e')).any fun c => c.isDigit && c ≠ '0'
  | .str s => s ≠ ""
  | .arr items => !items.isEmpty
  | .obj members => !members.isEmpty

/-- `value or default` -/
def orElse (value default : JsonRaw) : JsonRaw := if value.truthy then value else default

/-- `value.get(key, default)`, which only objects know. -/
def get (v : JsonRaw) (key : String) (default : JsonRaw) : Option JsonRaw :=
  match v with
  | .obj members => some ((members.lookup key).getD default)
  | _ => none

/-- A text to be put behind another. -/
def asStr : JsonRaw → Option String
  | .str s => some s
  | _ => none

/-- `value == text` -/
def isStr (v : JsonRaw) (text : String) : Bool :=
  match v with
  | .str s => s == text
  | _ => false

/-- An index; truth values are numbers. -/
def asInt : JsonRaw → Option Int
  | .scalar (.int n) => some n
  | .scalar (.bool b) => some (if b then 1 else 0)
  | _ => none

/-! ## Members after sorting -/

/-- The value that counts under a key: of members with one key the last. -/
def field (key : String) : List (String × JsonRaw) → Option JsonRaw
  | [] => none
  | (name, v) :: members => (field key members).or (if key = name then some v.sorted else none)

theorem lookup_eq_none {key : String} {members : List (String × JsonRaw)}
    (absent : ∀ m ∈ members, key ≠ m.1) : members.lookup key = none := by
  rw [List.lookup_eq_none_iff]
  intro m member
  simpa using absent m member

theorem lookup_insertMember (key other : String) (v : JsonRaw) {members : List (String × JsonRaw)}
    (canonical : CanonicalMembers members) :
    (insertMember key v members).lookup other =
      (members.lookup other).or (if other = key then some v else none) := by
  induction members with
  | nil =>
      by_cases same : other = key
      · simp [insertMember, same]
      · simp [insertMember, List.lookup_cons, beq_eq_false_iff_ne.mpr same, same]
  | cons member members ih =>
      obtain ⟨name, w⟩ := member
      obtain ⟨-, after, canonical⟩ := canonical
      simp only [insertMember]
      split
      · next less =>
        by_cases same : other = key
        · subst same
          have absent : ((name, w) :: members).lookup other = none := by
            refine lookup_eq_none fun m member => ?_
            cases List.mem_cons.mp member with
            | inl first => exact first ▸ String.ne_of_lt less
            | inr later => exact String.ne_of_lt (String.lt_trans less (after m later))
          simp [absent]
        · simp [List.lookup_cons, beq_eq_false_iff_ne.mpr same, same]
      · split
        · next same =>
          subst same
          by_cases here : other = key <;> simp [List.lookup_cons, here]
        · simp only [List.lookup_cons, ih canonical]
          split <;> rfl

theorem lookup_sortedMembers (key : String) (members : List (String × JsonRaw)) :
    (sortedMembers members).lookup key = field key members := by
  induction members with
  | nil => rfl
  | cons member members ih =>
      obtain ⟨name, v⟩ := member
      rw [sortedMembers, lookup_insertMember name key _ (sortedMembers_canonical members), ih, field]

/-- Sorting does not change what an object answers. -/
theorem get_sorted (members : List (String × JsonRaw)) (key : String) (default : JsonRaw) :
    (obj (sortedMembers members)).get key default = some ((field key members).getD default) :=
  congrArg (fun value => some (Option.getD value default)) (lookup_sortedMembers key members)

theorem truthy_sorted {members : List (String × JsonRaw)} (some : members ≠ []) :
    (obj members).sorted.truthy = true := by
  cases members with
  | nil => exact absurd rfl some
  | cons member members =>
      have found := lookup_sortedMembers member.1 (member :: members)
      simp only [sorted, truthy]
      cases same : sortedMembers (member :: members) with
      | nil => simp [same, field] at found
      | cons => rfl

end JsonRaw

/-! ## The text of a value is one line -/

theorem JsonScalar.tokenChar_visible {c : Char} (token : JsonScalar.tokenChar c = true) :
    32 ≤ c.toNat := by
  have upper : c.isUpper = decide (c.val ≥ 'A'.val ∧ c.val ≤ 'Z'.val) := rfl
  have lower : c.isLower = (decide (c.val ≥ 'a'.val) && decide (c.val ≤ 'z'.val)) := rfl
  have alphanum : c.isAlphanum = (c.isUpper || c.isLower || c.isDigit) := rfl
  simp only [JsonScalar.tokenChar, alphanum, upper, lower, Char.isDigit, Bool.or_eq_true,
    Bool.and_eq_true, decide_eq_true_eq, ge_iff_le, UInt32.le_iff_toNat_le] at token
  have value : c.val.toNat = c.toNat := rfl
  have letters : 'A'.val.toNat = 65 ∧ 'a'.val.toNat = 97 ∧ '0'.val.toNat = 48 := by decide
  rcases token with (((((_ | _) | _) | rfl) | rfl) | rfl) <;> first | omega | decide

namespace JsonString

theorem digitChar_visible {d : Nat} (small : d < 16) : 32 ≤ (Nat.digitChar d).toNat := by
  interval_cases d <;> decide

theorem escape_visible (ascii : Bool) (c : Char) : ∀ d ∈ escape ascii c, 32 ≤ d.toNat := by
  intro d member
  unfold escape at member
  split_ifs at member
  iterate 7
    next =>
      simp only [List.mem_cons, List.not_mem_nil, or_false] at member
      rcases member with rfl | rfl <;> decide
  · obtain ⟨unit, -, member⟩ := List.mem_flatMap.mp member
    simp only [hex4, List.mem_cons, List.not_mem_nil, or_false] at member
    rcases member with rfl | rfl | rfl | rfl | rfl | rfl
    · decide
    · decide
    all_goals exact digitChar_visible (Nat.mod_lt _ (by decide))
  · obtain rfl := List.mem_singleton.mp member
    omega

theorem write_visible (ascii : Bool) (s : String) : ∀ c ∈ write ascii s, 32 ≤ c.toNat := by
  intro c member
  simp only [write, List.mem_cons, List.mem_append, List.mem_flatMap, List.not_mem_nil,
    or_false] at member
  rcases member with rfl | ⟨d, -, member⟩ | rfl
  · decide
  · exact escape_visible ascii d c member
  · decide

end JsonString

namespace JsonRaw

theorem comma_visible (style : JsonStyle) : ∀ c ∈ style.comma, 32 ≤ c.toNat := by
  cases style <;> simp [JsonStyle.comma]

theorem colon_visible (style : JsonStyle) : ∀ c ∈ style.colon, 32 ≤ c.toNat := by
  cases style <;> simp [JsonStyle.colon]

mutual

theorem write_visible (style : JsonStyle) : ∀ v : JsonRaw, ∀ c ∈ v.write style, 32 ≤ c.toNat
  | .scalar s => by
      intro c member
      exact JsonScalar.tokenChar_visible (s.text_token c (by simpa only [write] using member))
  | .str s => by simpa only [write] using JsonString.write_visible style.ascii s
  | .arr [] => by simp [write]
  | .arr (v :: items) => by
      intro c member
      simp only [write, List.mem_cons, List.mem_append] at member
      rcases member with rfl | first | rest
      · decide
      · exact write_visible style v c first
      · exact writeItems_visible style items c rest
  | .obj [] => by simp [write]
  | .obj ((key, v) :: members) => by
      intro c member
      simp only [write, List.mem_cons, List.mem_append] at member
      rcases member with rfl | ((name | colon) | first) | rest
      · decide
      · exact JsonString.write_visible style.ascii key c name
      · exact colon_visible style c colon
      · exact write_visible style v c first
      · exact writeMembers_visible style members c rest

theorem writeItems_visible (style : JsonStyle) :
    ∀ items : List JsonRaw, ∀ c ∈ writeItems style items, 32 ≤ c.toNat
  | [] => by simp [writeItems]
  | v :: items => by
      intro c member
      simp only [writeItems, List.mem_append] at member
      rcases member with (comma | first) | rest
      · exact comma_visible style c comma
      · exact write_visible style v c first
      · exact writeItems_visible style items c rest

theorem writeMembers_visible (style : JsonStyle) :
    ∀ members : List (String × JsonRaw), ∀ c ∈ writeMembers style members, 32 ≤ c.toNat
  | [] => by simp [writeMembers]
  | (key, v) :: members => by
      intro c member
      simp only [writeMembers, List.mem_append] at member
      rcases member with (((comma | name) | colon) | first) | rest
      · exact comma_visible style c comma
      · exact JsonString.write_visible style.ascii key c name
      · exact colon_visible style c colon
      · exact write_visible style v c first
      · exact writeMembers_visible style members c rest

end

theorem writeMembers_closes (style : JsonStyle) (members : List (String × JsonRaw)) :
    ∃ front, writeMembers style members = front ++ ['\x7d'] := by
  induction members with
  | nil => exact ⟨[], rfl⟩
  | cons member members ih =>
      obtain ⟨front, same⟩ := ih
      rw [writeMembers, same, ← List.append_assoc]
      exact ⟨_, rfl⟩

/-- An object is written between braces. -/
theorem write_obj (style : JsonStyle) (members : List (String × JsonRaw)) :
    ∃ inside, (obj members).write style = '\x7b' :: (inside ++ ['\x7d']) := by
  cases members with
  | nil => exact ⟨[], rfl⟩
  | cons member members =>
      obtain ⟨front, same⟩ := writeMembers_closes style members
      rw [write, same, ← List.append_assoc]
      exact ⟨_, rfl⟩

/-- Whatever was written is read back, with its members in order. -/
theorem loads_write (style : JsonStyle) (v : JsonRaw) :
    JsonValue.loads (String.ofList (v.write style)) = some (JsonValue.ofRaw v) := by
  have whole := readsBack style v ((v.write style).length + 1) [] (by omega) (by rintro c ⟨⟩)
  have begins := skip_write style v []
  rw [List.append_nil] at whole begins
  simp only [JsonValue.loads, String.toList_ofList, begins, whole]
  rfl

end JsonRaw
