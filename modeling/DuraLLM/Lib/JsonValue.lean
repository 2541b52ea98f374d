import DuraLLM.Lib.Json
import Mathlib.Data.List.Basic
import Mathlib.Tactic.IntervalCases

/-! # JSON values and their text

Values as a JSON library has them in memory: an object is a finite map, kept in
the order of its keys, and a float is kept as the text that is written for it.
The writer knows the three styles of `JsonStyle`.  The reader takes any blanks,
any order of members and repeated keys, of which the last one counts.  Reading
back what was written gives the value, so no two values have the same text.
-/

/-! ## Scalars -/

/-- What a shortest float representation is made of.  The point or the exponent
    tells it from an integer. -/
def floatText (text : List Char) : Bool :=
  text.all (fun c => c.isDigit || c = '+' || c = '-' || c = '.' || c = 'e') &&
    text.any fun c => c = '.' || c = 'e'

inductive JsonScalar where
  | null
  | bool (value : Bool)
  | int (value : Int)
  | float (text : List Char) (valid : floatText text)
  deriving DecidableEq

namespace JsonScalar

def tokenChar (c : Char) : Bool := c.isAlphanum || c = '+' || c = '-' || c = '.'

def text : JsonScalar → List Char
  | .null => ['n', 'u', 'l', 'l']
  | .bool true => ['t', 'r', 'u', 'e']
  | .bool false => ['f', 'a', 'l', 's', 'e']
  | .int (.ofNat n) => Nat.toDigits 10 n
  | .int (.negSucc n) => '-' :: Nat.toDigits 10 (n + 1)
  | .float text _ => text

def readNat (digits : List Char) : Option Nat :=
  if digits ≠ [] ∧ digits.all Char.isDigit then some (Nat.ofDigitChars 10 digits 0) else none

def readInt : List Char → Option Int
  | '-' :: digits => (readNat digits).map fun n => -(n : Int)
  | digits => (readNat digits).map Int.ofNat

def read (token : List Char) : Option JsonScalar :=
  if token = ['n', 'u', 'l', 'l'] then some .null
  else if token = ['t', 'r', 'u', 'e'] then some (.bool true)
  else if token = ['f', 'a', 'l', 's', 'e'] then some (.bool false)
  else if valid : floatText token then some (.float token valid)
  else (readInt token).map .int

theorem digits_digit (n : Nat) {c : Char} (member : c ∈ Nat.toDigits 10 n) : c.isDigit = true :=
  Nat.isDigit_of_mem_toDigits (by decide) (by decide) member

theorem readNat_digits (n : Nat) : readNat (Nat.toDigits 10 n) = some n := by
  have digits : (Nat.toDigits 10 n).all Char.isDigit = true :=
    List.all_eq_true.mpr fun _ => digits_digit n
  simp [readNat, digits, Nat.toDigits_ne_nil]

theorem readInt_text (n : Int) : readInt (text (.int n)) = some n := by
  cases n with
  | negSucc n => simp [text, readInt, readNat_digits, Int.negSucc_eq]
  | ofNat n =>
      have first : ∀ {c : Char}, c ∈ Nat.toDigits 10 n → c.isDigit = true := digits_digit n
      have whole := readNat_digits n
      simp only [text]
      generalize Nat.toDigits 10 n = digits at first whole
      unfold readInt
      split
      · next rest =>
        have minus := first List.mem_cons_self
        simp at minus
      · simp [whole]

/-- The characters of numbers. -/
def Numeric (token : List Char) : Prop :=
  ∀ c ∈ token, c.isDigit = true ∨ c = '+' ∨ c = '-' ∨ c = '.' ∨ c = 'e'

theorem Numeric.no_word {token : List Char} (numeric : Numeric token) :
    token ≠ ['n', 'u', 'l', 'l'] ∧ token ≠ ['t', 'r', 'u', 'e'] ∧
      token ≠ ['f', 'a', 'l', 's', 'e'] := by
  refine ⟨?_, ?_, ?_⟩ <;>
    · rintro rfl
      have first := numeric _ List.mem_cons_self
      simp at first

theorem float_numeric {token : List Char} (valid : floatText token) : Numeric token := by
  intro c member
  have all := List.all_eq_true.mp (Bool.and_eq_true_iff.mp valid).1 c member
  simpa [or_assoc] using all

/-- The text of an integer holds digits and a sign. -/
theorem int_chars (n : Int) {c : Char} (member : c ∈ text (.int n)) :
    c.isDigit = true ∨ c = '-' := by
  cases n with
  | ofNat n => exact .inl (digits_digit n member)
  | negSucc n =>
      rcases List.mem_cons.mp member with rfl | digit
      · exact .inr rfl
      · exact .inl (digits_digit (n + 1) digit)

theorem int_numeric (n : Int) : Numeric (text (.int n)) := by
  intro c member
  rcases int_chars n member with digit | rfl
  · exact .inl digit
  · exact .inr (.inr (.inl rfl))

theorem int_not_float (n : Int) : floatText (text (.int n)) = false := by
  rw [Bool.eq_false_iff]
  intro float
  obtain ⟨c, member, mark⟩ := List.any_eq_true.mp (Bool.and_eq_true_iff.mp float).2
  have chars := int_chars n member
  simp only [Bool.or_eq_true, decide_eq_true_eq] at mark
  rcases mark with rfl | rfl <;> simp at chars

theorem read_text (s : JsonScalar) : read s.text = some s := by
  cases s with
  | null => rfl
  | bool value => cases value <;> rfl
  | float token valid =>
      obtain ⟨notNull, notTrue, notFalse⟩ := (float_numeric valid).no_word
      simp [read, text, notNull, notTrue, notFalse, valid]
  | int n =>
      obtain ⟨notNull, notTrue, notFalse⟩ := (int_numeric n).no_word
      simp [read, notNull, notTrue, notFalse, int_not_float, readInt_text]

theorem Numeric.token {token : List Char} (numeric : Numeric token) :
    ∀ c ∈ token, tokenChar c = true := by
  intro c member
  rcases numeric c member with digit | rfl | rfl | rfl | rfl
  · simp [tokenChar, Char.isAlphanum, digit]
  all_goals decide

theorem text_token (s : JsonScalar) : ∀ c ∈ s.text, tokenChar c = true := by
  cases s with
  | null => simp [text, tokenChar]
  | bool value => cases value <;> simp [text, tokenChar]
  | float token valid => exact (float_numeric valid).token
  | int n => exact (int_numeric n).token

theorem text_ne_nil (s : JsonScalar) : s.text ≠ [] := by
  intro empty
  have read := read_text s
  rw [empty] at read
  cases read

end JsonScalar

/-! ## Strings -/

namespace JsonString

def hex4 (n : Nat) : List Char :=
  [Nat.digitChar (n / 4096 % 16), Nat.digitChar (n / 256 % 16), Nat.digitChar (n / 16 % 16),
    Nat.digitChar (n % 16)]

/-- The code units that are written as one escape each. -/
def units (c : Char) : List Nat :=
  if c.toNat < 0x10000 then [c.toNat]
  else [0xD800 + (c.toNat - 0x10000) / 0x400, 0xDC00 + (c.toNat - 0x10000) % 0x400]

/-- `ascii` escapes everything outside the printable ASCII characters. -/
def escape (ascii : Bool) (c : Char) : List Char :=
  if c = '\x22' then ['\x5c', '\x22']
  else if c = '\x5c' then ['\x5c', '\x5c']
  else if c = '\x08' then ['\x5c', 'b']
  else if c = '\x0c' then ['\x5c', 'f']
  else if c = '\n' then ['\x5c', 'n']
  else if c = '\r' then ['\x5c', 'r']
  else if c = '\t' then ['\x5c', 't']
  else if c.toNat < 32 ∨ (ascii ∧ 126 < c.toNat) then
    (units c).flatMap fun unit => '\x5c' :: 'u' :: hex4 unit
  else [c]

def write (ascii : Bool) (s : String) : List Char :=
  '\x22' :: (s.toList.flatMap (escape ascii) ++ ['\x22'])

def hexValue (c : Char) : Option Nat :=
  if c.isDigit then some (c.toNat - 48)
  else if 'a' ≤ c ∧ c ≤ 'f' then some (c.toNat - 87)
  else if 'A' ≤ c ∧ c ≤ 'F' then some (c.toNat - 55)
  else none

def readHex4 (a b c d : Char) : Option Nat := do
  return 4096 * (← hexValue a) + 256 * (← hexValue b) + 16 * (← hexValue c) + (← hexValue d)

def simpleEscape (c : Char) : Option Nat :=
  if c = '\x22' ∨ c = '\x5c' ∨ c = '/' then some c.toNat
  else if c = 'b' then some 8
  else if c = 'f' then some 12
  else if c = 'n' then some 10
  else if c = 'r' then some 13
  else if c = 't' then some 9
  else none

/-- The code units of a string literal after its opening quote, and what
    follows the closing one. -/
def readUnits : List Char → Option (List Nat × List Char)
  | '\x22' :: rest => some ([], rest)
  | '\x5c' :: 'u' :: a :: b :: c :: d :: rest => do
      let unit ← readHex4 a b c d
      let (units, rest) ← readUnits rest
      return (unit :: units, rest)
  | '\x5c' :: c :: rest => do
      let unit ← simpleEscape c
      let (units, rest) ← readUnits rest
      return (unit :: units, rest)
  | c :: rest =>
      if c.toNat < 32 then none
      else do
        let (units, rest) ← readUnits rest
        return (c.toNat :: units, rest)
  | [] => none

/-- Surrogate pairs make one character; a lone surrogate is no character. -/
def join : List Nat → Option (List Char)
  | [] => some []
  | [unit] => if unit.isValidChar then some [Char.ofNat unit] else none
  | unit :: next :: units =>
      if 0xD800 ≤ unit ∧ unit < 0xDC00 ∧ 0xDC00 ≤ next ∧ next < 0xE000 then
        (join units).map (Char.ofNat (0x10000 + (unit - 0xD800) * 0x400 + (next - 0xDC00)) :: ·)
      else if unit.isValidChar then (join (next :: units)).map (Char.ofNat unit :: ·)
      else none

def read (chars : List Char) : Option (String × List Char) := do
  let (units, rest) ← readUnits chars
  let s ← join units
  return (String.ofList s, rest)

theorem hexValue_digitChar {d : Nat} (small : d < 16) : hexValue (Nat.digitChar d) = some d := by
  interval_cases d <;> decide

theorem readHex4_hex4 {n : Nat} (small : n < 0x10000) :
    readHex4 (Nat.digitChar (n / 4096 % 16)) (Nat.digitChar (n / 256 % 16))
      (Nat.digitChar (n / 16 % 16)) (Nat.digitChar (n % 16)) = some n := by
  simp only [readHex4, hexValue_digitChar (Nat.mod_lt _ (by decide : 0 < 16)), Option.bind_eq_bind,
    Option.bind_some, Option.pure_def, Option.some.injEq]
  omega

/-- The code units that a character is read back as. -/
def codes (ascii : Bool) (c : Char) : List Nat :=
  if c.toNat < 32 ∨ (ascii ∧ 126 < c.toNat) then units c else [c.toNat]

theorem toNat_cases (c : Char) : c.toNat < 0xD800 ∨ 0xDFFF < c.toNat ∧ c.toNat < 0x110000 :=
  c.valid

theorem units_small (c : Char) : ∀ unit ∈ units c, unit < 0x10000 := by
  have bound := toNat_cases c
  unfold units
  split
  · next small =>
    simp only [List.mem_singleton]
    intro unit same
    omega
  · simp only [List.mem_cons, List.not_mem_nil, or_false]
    intro unit same
    omega

theorem readUnits_unit {unit : Nat} (small : unit < 0x10000) (rest : List Char) :
    readUnits ('\x5c' :: 'u' :: (hex4 unit ++ rest)) =
      (readUnits rest).map fun p => (unit :: p.1, p.2) := by
  simp only [hex4, List.cons_append, List.nil_append, readUnits, readHex4_hex4 small,
    Option.bind_eq_bind, Option.bind_some]
  cases readUnits rest <;> rfl

theorem readUnits_escapes (escaped : List Nat) (small : ∀ unit ∈ escaped, unit < 0x10000)
    (rest : List Char) :
    readUnits ((escaped.flatMap fun unit => '\x5c' :: 'u' :: hex4 unit) ++ rest) =
      (readUnits rest).map fun p => (escaped ++ p.1, p.2) := by
  induction escaped with
  | nil => simp
  | cons unit escaped ih =>
      simp only [List.flatMap_cons, List.cons_append, List.append_assoc]
      rw [readUnits_unit (small unit List.mem_cons_self),
        ih fun other member => small other (List.mem_cons_of_mem _ member)]
      cases readUnits rest <;> rfl

theorem readUnits_escape (ascii : Bool) (c : Char) (rest : List Char) :
    readUnits (escape ascii c ++ rest) =
      (readUnits rest).map fun p => (codes ascii c ++ p.1, p.2) := by
  by_cases named : c = '\x22' ∨ c = '\x5c' ∨ c = '\x08' ∨ c = '\x0c' ∨ c = '\n' ∨ c = '\r' ∨ c = '\t'
  · rcases named with rfl | rfl | rfl | rfl | rfl | rfl | rfl <;> cases ascii <;>
      cases found : readUnits rest <;> simp [escape, readUnits, simpleEscape, codes, units, found]
  · simp only [not_or] at named
    obtain ⟨quote, backslash, b, f, n, r, t⟩ := named
    simp only [escape, quote, backslash, b, f, n, r, t, if_false, codes]
    split
    · exact readUnits_escapes _ (units_small c) rest
    · next plain =>
      have printable : ¬c.toNat < 32 := fun small => plain (.inl small)
      cases found : readUnits rest <;> simp [readUnits, backslash, printable, found]

theorem readUnits_body (ascii : Bool) (s : List Char) (rest : List Char) :
    readUnits (s.flatMap (escape ascii) ++ '\x22' :: rest) = some (s.flatMap (codes ascii), rest) := by
  induction s with
  | nil => rfl
  | cons c s ih =>
      rw [List.flatMap_cons, List.append_assoc, readUnits_escape, ih]
      rfl

theorem join_single (c : Char) (rest : List Nat) :
    join (c.toNat :: rest) = (join rest).map (c :: ·) := by
  have valid : c.toNat.isValidChar := c.valid
  have bound := toNat_cases c
  cases rest with
  | nil => simp [join, valid]
  | cons next rest =>
      have single : ¬(0xD800 ≤ c.toNat ∧ c.toNat < 0xDC00 ∧ 0xDC00 ≤ next ∧ next < 0xE000) := by
        omega
      simp only [join, single, if_false, valid, if_true, Char.ofNat_toNat]

theorem join_units (c : Char) (rest : List Nat) :
    join (units c ++ rest) = (join rest).map (c :: ·) := by
  have bound := toNat_cases c
  unfold units
  split
  · exact join_single c rest
  · next large =>
    have pair : 0x10000 + (0xD800 + (c.toNat - 0x10000) / 0x400 - 0xD800) * 0x400 +
        (0xDC00 + (c.toNat - 0x10000) % 0x400 - 0xDC00) = c.toNat := by omega
    simp only [List.cons_append, List.nil_append, join]
    rw [if_pos (by omega), pair, Char.ofNat_toNat]

theorem join_codes_append (ascii : Bool) (c : Char) (rest : List Nat) :
    join (codes ascii c ++ rest) = (join rest).map (c :: ·) := by
  unfold codes
  split
  · exact join_units c rest
  · exact join_single c rest

theorem join_codes (ascii : Bool) (s : List Char) : join (s.flatMap (codes ascii)) = some s := by
  induction s with
  | nil => rfl
  | cons c s ih =>
      rw [List.flatMap_cons, join_codes_append, ih]
      rfl

theorem read_write (ascii : Bool) (s : String) (rest : List Char) :
    read ((s.toList.flatMap (escape ascii) ++ ['\x22']) ++ rest) = some (s, rest) := by
  simp [read, readUnits_body, join_codes]

end JsonString

/-! ## Values -/

namespace JsonStyle

def ascii : JsonStyle → Bool
  | .spaced | .compact => true
  | .verbatim => false

def comma : JsonStyle → List Char
  | .spaced | .verbatim => [',', ' ']
  | .compact => [',']

def colon : JsonStyle → List Char
  | .spaced | .verbatim => [':', ' ']
  | .compact => [':']

end JsonStyle

/-- A value as it is read, with the members of its objects in any order. -/
inductive JsonRaw where
  | scalar (s : JsonScalar)
  | str (s : String)
  | arr (items : List JsonRaw)
  | obj (members : List (String × JsonRaw))

namespace JsonRaw

mutual

def write (style : JsonStyle) : JsonRaw → List Char
  | .scalar s => s.text
  | .str s => JsonString.write style.ascii s
  | .arr [] => ['[', ']']
  | .arr (v :: items) => '[' :: (v.write style ++ writeItems style items)
  | .obj [] => ['\x7b', '\x7d']
  | .obj ((key, v) :: members) =>
      '\x7b' :: (JsonString.write style.ascii key ++ style.colon ++ v.write style ++
        writeMembers style members)

/-- The items after the first. -/
def writeItems (style : JsonStyle) : List JsonRaw → List Char
  | [] => [']']
  | v :: items => style.comma ++ v.write style ++ writeItems style items

def writeMembers (style : JsonStyle) : List (String × JsonRaw) → List Char
  | [] => ['\x7d']
  | (key, v) :: members =>
      style.comma ++ JsonString.write style.ascii key ++ style.colon ++ v.write style ++
        writeMembers style members

end

def blank (c : Char) : Bool := c = ' ' || c = '\n' || c = '\r' || c = '\t'

def skip (chars : List Char) : List Char := chars.dropWhile blank

mutual

/-- A value at the start of the text, and what follows it. -/
def read : Nat → List Char → Option (JsonRaw × List Char)
  | 0, _ => none
  | fuel + 1, chars =>
      match chars with
      | '\x22' :: rest => (JsonString.read rest).map fun p => (.str p.1, p.2)
      | '[' :: rest =>
          match skip rest with
          | ']' :: rest => some (.arr [], rest)
          | rest => (readItems fuel rest).map fun p => (.arr p.1, p.2)
      | '\x7b' :: rest =>
          match skip rest with
          | '\x7d' :: rest => some (.obj [], rest)
          | rest => (readMembers fuel rest).map fun p => (.obj p.1, p.2)
      | rest =>
          (JsonScalar.read (rest.takeWhile JsonScalar.tokenChar)).map fun s =>
            (.scalar s, rest.dropWhile JsonScalar.tokenChar)

def readItems : Nat → List Char → Option (List JsonRaw × List Char)
  | 0, _ => none
  | fuel + 1, chars => do
      let (v, rest) ← read fuel chars
      match skip rest with
      | ']' :: rest => return ([v], rest)
      | ',' :: rest => (readItems fuel (skip rest)).map fun p => (v :: p.1, p.2)
      | _ => none

def readMembers : Nat → List Char → Option (List (String × JsonRaw) × List Char)
  | 0, _ => none
  | fuel + 1, chars =>
      match chars with
      | '\x22' :: rest => do
          let (key, rest) ← JsonString.read rest
          match skip rest with
          | ':' :: rest => do
              let (v, rest) ← read fuel (skip rest)
              match skip rest with
              | '\x7d' :: rest => return ([(key, v)], rest)
              | ',' :: rest => (readMembers fuel (skip rest)).map fun p => ((key, v) :: p.1, p.2)
              | _ => none
          | _ => none
      | _ => none

end

/-- A scalar in front of this text ends where it should. -/
def Ends (rest : List Char) : Prop := ∀ c ∈ rest.head?, JsonScalar.tokenChar c = false

theorem skip_cons {c : Char} (visible : blank c = false) (rest : List Char) :
    skip (c :: rest) = c :: rest := by
  simp [skip, visible]

/-- The first character of a value. -/
def Opens (c : Char) : Prop :=
  c = '\x22' ∨ c = '[' ∨ c = '\x7b' ∨ JsonScalar.tokenChar c = true

theorem Opens.visible {c : Char} (opens : Opens c) : blank c = false := by
  rcases opens with rfl | rfl | rfl | token
  · decide
  · decide
  · decide
  · rw [Bool.eq_false_iff]
    intro isBlank
    simp only [blank, Bool.or_eq_true, decide_eq_true_eq] at isBlank
    rcases isBlank with ((rfl | rfl) | rfl) | rfl <;> simp [JsonScalar.tokenChar] at token

theorem Opens.ne_close {c : Char} (opens : Opens c) : c ≠ ']' ∧ c ≠ '\x7d' := by
  constructor <;>
    · rintro rfl
      rcases opens with same | same | same | token
      · cases same
      · cases same
      · cases same
      · simp [JsonScalar.tokenChar] at token

theorem write_opens (style : JsonStyle) (v : JsonRaw) :
    ∃ c rest, v.write style = c :: rest ∧ Opens c := by
  cases v with
  | scalar s =>
      obtain ⟨c, rest, same⟩ := List.exists_cons_of_ne_nil s.text_ne_nil
      refine ⟨c, rest, by rw [write, same], .inr (.inr (.inr ?_))⟩
      exact s.text_token c (same ▸ List.mem_cons_self)
  | str s => exact ⟨_, _, by rw [write, JsonString.write], .inl rfl⟩
  | arr items => cases items <;> exact ⟨_, _, by rw [write], .inr (.inl rfl)⟩
  | obj members => cases members <;> exact ⟨_, _, by rw [write], .inr (.inr (.inl rfl))⟩

theorem skip_write (style : JsonStyle) (v : JsonRaw) (rest : List Char) :
    skip (v.write style ++ rest) = v.write style ++ rest := by
  obtain ⟨c, chars, same, opens⟩ := write_opens style v
  rw [same]
  exact skip_cons opens.visible _

theorem skip_comma (style : JsonStyle) {rest : List Char} (same : skip rest = rest) :
    ∃ spaced, style.comma ++ rest = ',' :: spaced ∧ skip spaced = rest := by
  cases style with
  | spaced | verbatim => exact ⟨' ' :: rest, rfl, same⟩
  | compact => exact ⟨rest, rfl, same⟩

theorem skip_colon (style : JsonStyle) {rest : List Char} (same : skip rest = rest) :
    ∃ spaced, style.colon ++ rest = ':' :: spaced ∧ skip spaced = rest := by
  cases style with
  | spaced | verbatim => exact ⟨' ' :: rest, rfl, same⟩
  | compact => exact ⟨rest, rfl, same⟩

/-- With fuel for its text, the value is read back from in front of any text
    that does not continue it. -/
def ReadsBack (style : JsonStyle) (v : JsonRaw) : Prop :=
  ∀ fuel rest, (v.write style).length ≤ fuel → Ends rest →
    read fuel (v.write style ++ rest) = some (v, rest)

theorem Ends.span {rest : List Char} (ends : Ends rest) :
    rest.takeWhile JsonScalar.tokenChar = [] ∧ rest.dropWhile JsonScalar.tokenChar = rest := by
  cases rest with
  | nil => exact ⟨rfl, rfl⟩
  | cons c rest =>
      have stop := ends c rfl
      simp [stop]

theorem scalar_readsBack (style : JsonStyle) (s : JsonScalar) : ReadsBack style (.scalar s) := by
  intro fuel rest enough ends
  obtain ⟨c, chars, same⟩ := List.exists_cons_of_ne_nil s.text_ne_nil
  have first : JsonScalar.tokenChar c = true := s.text_token c (same ▸ List.mem_cons_self)
  have other : ∀ {d : Char} {more : List Char}, JsonScalar.tokenChar d = false →
      s.text ++ rest = d :: more → False := by
    intro d more stops begins
    rw [same] at begins
    obtain ⟨rfl, _⟩ := List.cons.inj begins
    rw [first] at stops
    cases stops
  cases fuel with
  | zero => simp [write, same] at enough
  | succ fuel =>
      rw [write, read]
      · rw [List.takeWhile_append_of_pos s.text_token, List.dropWhile_append_of_pos s.text_token,
          ends.span.1, ends.span.2, List.append_nil, s.read_text]
        rfl
      · exact fun _ => other (by decide)
      · exact fun _ => other (by decide)
      · exact fun _ => other (by decide)

/-- One member, up to the character that follows its value. -/
theorem readMembers_first (style : JsonStyle) (key : String) {v : JsonRaw} {fuel : Nat} {c : Char}
    (rest : List Char) (first : ReadsBack style v) (enough : (v.write style).length ≤ fuel)
    (stops : JsonScalar.tokenChar c = false) (visible : blank c = false) :
    readMembers (fuel + 1) (JsonString.write style.ascii key ++
        (style.colon ++ (v.write style ++ c :: rest))) =
      match c :: rest with
      | '\x7d' :: rest => some ([(key, v)], rest)
      | ',' :: rest => (readMembers fuel (skip rest)).map fun p => ((key, v) :: p.1, p.2)
      | _ => none := by
  have ends : Ends (c :: rest) := by
    rintro d ⟨⟩
    exact stops
  obtain ⟨spaced, separated, resumes⟩ := skip_colon style (skip_write style v (c :: rest))
  rw [separated, JsonString.write, List.cons_append, readMembers]
  simp only [JsonString.read_write, Option.bind_eq_bind, Option.bind_some,
    skip_cons (show blank ':' = false by decide), resumes, first fuel (c :: rest) enough ends,
    skip_cons visible]
  rfl

mutual

theorem readsBack (style : JsonStyle) : ∀ v : JsonRaw, ReadsBack style v
  | .scalar s => scalar_readsBack style s
  | .str s => by
      intro fuel rest enough _
      cases fuel with
      | zero => simp [write, JsonString.write] at enough
      | succ fuel =>
          rw [write, JsonString.write, List.cons_append, read, JsonString.read_write]
          rfl
  | .arr [] => by
      intro fuel rest enough _
      cases fuel with
      | zero => simp [write] at enough
      | succ fuel =>
          rw [write, List.cons_append, List.cons_append, read, skip_cons (by decide)]
          rfl
  | .arr (v :: items) => by
      intro fuel rest enough _
      cases fuel with
      | zero => simp [write] at enough
      | succ fuel =>
          simp only [write, List.length_cons, Nat.add_le_add_iff_right] at enough
          have whole := items_readBack style items v fuel rest (readsBack style v) enough
          obtain ⟨c, chars, same, opens⟩ := write_opens style v
          rw [write, List.cons_append, read, List.append_assoc, skip_write]
          rw [List.append_assoc, same] at whole
          rw [same]
          split
          · next close =>
            exact absurd (List.cons.inj close).1 opens.ne_close.1
          · rw [whole]
            rfl
  | .obj [] => by
      intro fuel rest enough _
      cases fuel with
      | zero => simp [write] at enough
      | succ fuel =>
          rw [write, List.cons_append, List.cons_append, read, skip_cons (by decide)]
          rfl
  | .obj ((key, v) :: members) => by
      intro fuel rest enough _
      cases fuel with
      | zero => simp [write] at enough
      | succ fuel =>
          simp only [write, List.length_cons, Nat.add_le_add_iff_right] at enough
          have whole := members_readBack style members key v fuel rest (readsBack style v) enough
          rw [write, List.cons_append, read]
          simp only [JsonString.write, List.cons_append] at whole ⊢
          rw [skip_cons (by decide)]
          split
          · next close => cases (List.cons.inj close).1
          · rw [whole]
            rfl

theorem items_readBack (style : JsonStyle) : ∀ (items : List JsonRaw) (v : JsonRaw) (fuel : Nat)
    (rest : List Char), ReadsBack style v →
    (v.write style ++ writeItems style items).length ≤ fuel →
    readItems fuel (v.write style ++ writeItems style items ++ rest) = some (v :: items, rest)
  | [], v, fuel, rest, first, enough => by
      simp only [writeItems, List.length_append, List.length_cons, List.length_nil] at enough
      cases fuel with
      | zero => omega
      | succ fuel =>
          have ends : Ends (']' :: rest) := by
            rintro c ⟨⟩
            decide
          simp only [writeItems, List.append_assoc, List.cons_append, List.nil_append, readItems]
          rw [first fuel (']' :: rest) (by omega) ends]
          simp [skip_cons (show blank ']' = false by decide)]
  | w :: items, v, fuel, rest, first, enough => by
      simp only [writeItems, List.length_append] at enough
      cases fuel with
      | zero =>
          obtain ⟨c, chars, same, _⟩ := write_opens style v
          simp [same] at enough
      | succ fuel =>
          have nonempty : 0 < (v.write style).length := by
            obtain ⟨c, chars, same, _⟩ := write_opens style v
            simp [same]
          have comma : 0 < style.comma.length := by cases style <;> decide
          have later := items_readBack style items w fuel rest (readsBack style w) (by
            simp only [List.length_append]
            omega)
          rw [List.append_assoc] at later
          obtain ⟨spaced, separated, resumes⟩ :=
            skip_comma style (skip_write style w (writeItems style items ++ rest))
          have ends : Ends (',' :: spaced) := by
            rintro c ⟨⟩
            decide
          have split : v.write style ++ writeItems style (w :: items) ++ rest =
              v.write style ++ ',' :: spaced := by
            simp only [writeItems, ← separated, List.append_assoc]
          rw [split, readItems, first fuel (',' :: spaced) (by omega) ends]
          simp [skip_cons (show blank ',' = false by decide), resumes, later]

theorem members_readBack (style : JsonStyle) : ∀ (members : List (String × JsonRaw))
    (key : String) (v : JsonRaw) (fuel : Nat) (rest : List Char), ReadsBack style v →
    (JsonString.write style.ascii key ++ style.colon ++ v.write style ++
      writeMembers style members).length ≤ fuel →
    readMembers fuel (JsonString.write style.ascii key ++ style.colon ++ v.write style ++
      writeMembers style members ++ rest) = some ((key, v) :: members, rest)
  | [], key, v, fuel, rest, first, enough => by
      simp only [writeMembers, List.length_append, List.length_cons, List.length_nil] at enough
      cases fuel with
      | zero => omega
      | succ fuel =>
          simp only [writeMembers, List.append_assoc, List.cons_append, List.nil_append]
          rw [readMembers_first style key rest first (by omega) (by decide) (by decide)]
          rfl
  | (key', w) :: members, key, v, fuel, rest, first, enough => by
      simp only [writeMembers, List.length_append] at enough
      have comma : 0 < style.comma.length := by cases style <;> decide
      cases fuel with
      | zero => omega
      | succ fuel =>
          have quote : 0 < (JsonString.write style.ascii key).length := by simp [JsonString.write]
          have later := members_readBack style members key' w fuel rest (readsBack style w) (by
            simp only [List.length_append]
            omega)
          have opens : skip (JsonString.write style.ascii key' ++ (style.colon ++
              (w.write style ++ (writeMembers style members ++ rest)))) =
              JsonString.write style.ascii key' ++ (style.colon ++
                (w.write style ++ (writeMembers style members ++ rest))) :=
            skip_cons (by decide) _
          obtain ⟨spaced, separated, resumes⟩ := skip_comma style opens
          simp only [List.append_assoc] at later
          simp only [writeMembers, List.append_assoc, separated]
          rw [readMembers_first style key spaced first (by omega) (by decide) (by decide)]
          simp only [resumes, later, Option.map_some]

end

/-! ## Finite maps -/

/-- Put a member in its place. A member that is there already stays. -/
def insertMember (key : String) (v : JsonRaw) : List (String × JsonRaw) → List (String × JsonRaw)
  | [] => [(key, v)]
  | (other, w) :: members =>
      if key < other then (key, v) :: (other, w) :: members
      else if key = other then (other, w) :: members
      else (other, w) :: insertMember key v members

mutual

/-- The members of every object in the order of their keys; of members with one
    key the last. -/
def sorted : JsonRaw → JsonRaw
  | .scalar s => .scalar s
  | .str s => .str s
  | .arr items => .arr (sortedItems items)
  | .obj members => .obj (sortedMembers members)

def sortedItems : List JsonRaw → List JsonRaw
  | [] => []
  | v :: items => v.sorted :: sortedItems items

def sortedMembers : List (String × JsonRaw) → List (String × JsonRaw)
  | [] => []
  | (key, v) :: members => insertMember key v.sorted (sortedMembers members)

end

mutual

/-- All objects have their members in the order of distinct keys. -/
def Canonical : JsonRaw → Prop
  | .scalar _ | .str _ => True
  | .arr items => CanonicalItems items
  | .obj members => CanonicalMembers members

def CanonicalItems : List JsonRaw → Prop
  | [] => True
  | v :: items => v.Canonical ∧ CanonicalItems items

def CanonicalMembers : List (String × JsonRaw) → Prop
  | [] => True
  | (key, v) :: members =>
      v.Canonical ∧ (∀ m ∈ members, key < m.1) ∧ CanonicalMembers members

end

theorem insertMember_keys {key : String} {v : JsonRaw} {members : List (String × JsonRaw)}
    {m : String × JsonRaw} (member : m ∈ insertMember key v members) :
    m.1 = key ∨ m ∈ members := by
  induction members with
  | nil =>
      simp only [insertMember, List.mem_singleton] at member
      exact .inl (congrArg Prod.fst member)
  | cons other members ih =>
      obtain ⟨name, w⟩ := other
      simp only [insertMember] at member
      split at member
      · rcases List.mem_cons.mp member with same | old
        · exact .inl (congrArg Prod.fst same)
        · exact .inr old
      · split at member
        · exact .inr member
        · rcases List.mem_cons.mp member with same | rest
          · exact .inr (same ▸ List.mem_cons_self)
          · exact (ih rest).imp id (List.mem_cons_of_mem _)

theorem insertMember_canonical {key : String} {v : JsonRaw} {members : List (String × JsonRaw)}
    (value : v.Canonical) (canonical : CanonicalMembers members) :
    CanonicalMembers (insertMember key v members) := by
  induction members with
  | nil => exact ⟨value, by simp, trivial⟩
  | cons other members ih =>
      obtain ⟨name, w⟩ := other
      obtain ⟨first, before, rest⟩ := canonical
      simp only [insertMember]
      split
      · next less =>
        refine ⟨value, ?_, first, before, rest⟩
        intro m member
        rcases List.mem_cons.mp member with rfl | later
        · exact less
        · exact String.lt_trans less (before m later)
      · next notLess =>
        split
        · exact ⟨first, before, rest⟩
        · next different =>
          refine ⟨first, ?_, ih rest⟩
          intro m member
          rcases insertMember_keys member with same | old
          · rw [same]
            exact Std.lt_of_le_of_ne (String.not_lt.mp notLess) (Ne.symm different)
          · exact before m old

/-- A member before all others goes in front. -/
theorem insertMember_front {key : String} {v : JsonRaw} {members : List (String × JsonRaw)}
    (before : ∀ m ∈ members, key < m.1) : insertMember key v members = (key, v) :: members := by
  cases members with
  | nil => rfl
  | cons other members =>
      obtain ⟨name, w⟩ := other
      simp only [insertMember, if_pos (before _ List.mem_cons_self)]

mutual

theorem sorted_canonical : ∀ v : JsonRaw, v.sorted.Canonical
  | .scalar _ => trivial
  | .str _ => trivial
  | .arr items => sortedItems_canonical items
  | .obj members => sortedMembers_canonical members

theorem sortedItems_canonical : ∀ items : List JsonRaw, CanonicalItems (sortedItems items)
  | [] => trivial
  | v :: items => ⟨sorted_canonical v, sortedItems_canonical items⟩

theorem sortedMembers_canonical :
    ∀ members : List (String × JsonRaw), CanonicalMembers (sortedMembers members)
  | [] => trivial
  | (_, v) :: members =>
      insertMember_canonical (sorted_canonical v) (sortedMembers_canonical members)

end

mutual

theorem Canonical.sorted_eq : ∀ v : JsonRaw, v.Canonical → v.sorted = v
  | .scalar _, _ => rfl
  | .str _, _ => rfl
  | .arr items, canonical => congrArg JsonRaw.arr (CanonicalItems.sorted_eq items canonical)
  | .obj members, canonical => congrArg JsonRaw.obj (CanonicalMembers.sorted_eq members canonical)

theorem CanonicalItems.sorted_eq :
    ∀ items : List JsonRaw, CanonicalItems items → sortedItems items = items
  | [], _ => rfl
  | v :: items, canonical => by
      rw [sortedItems, Canonical.sorted_eq v canonical.1, CanonicalItems.sorted_eq items canonical.2]

theorem CanonicalMembers.sorted_eq :
    ∀ members : List (String × JsonRaw), CanonicalMembers members → sortedMembers members = members
  | [], _ => rfl
  | (key, v) :: members, canonical => by
      rw [sortedMembers, Canonical.sorted_eq v canonical.1,
        CanonicalMembers.sorted_eq members canonical.2.2, insertMember_front canonical.2.1]

end

end JsonRaw

/-- A JSON value.  Two objects with the same members are the same value. -/
structure JsonValue where
  raw : JsonRaw
  canonical : raw.Canonical

namespace JsonValue

@[ext] theorem ext {v w : JsonValue} (same : v.raw = w.raw) : v = w := by
  cases v
  cases w
  simpa using same

/-- A value with its objects in order. -/
def ofRaw (raw : JsonRaw) : JsonValue := ⟨raw.sorted, raw.sorted_canonical⟩

/-- The value under a key of an object. -/
def field (v : JsonValue) (key : String) : Option JsonRaw :=
  match v.raw with
  | .obj members => members.lookup key
  | _ => none

/-- With `sort_keys` the members are written in the order of their keys. -/
def dumps (style : JsonStyle) (v : JsonValue) : String := String.ofList (v.raw.write style)

def loads (text : String) : Option JsonValue :=
  match JsonRaw.read (text.toList.length + 1) (JsonRaw.skip text.toList) with
  | some (raw, rest) => if JsonRaw.skip rest = [] then some (ofRaw raw) else none
  | none => none

theorem loads_dumps (style : JsonStyle) (v : JsonValue) : loads (v.dumps style) = some v := by
  have whole := JsonRaw.readsBack style v.raw ((v.raw.write style).length + 1) [] (by omega)
    (by rintro c ⟨⟩)
  have begins := JsonRaw.skip_write style v.raw []
  rw [List.append_nil] at whole begins
  simp only [loads, dumps, String.toList_ofList, begins, whole]
  exact congrArg some (JsonValue.ext (JsonRaw.Canonical.sorted_eq v.raw v.canonical))

example : (ofRaw (.obj [("b", .scalar (.int (-12))), ("a", .str "é\n")])).dumps .spaced =
    "\x7b\"a\": \"\\u00e9\\n\", \"b\": -12\x7d" := by decide +kernel

instance : JsonCodec JsonValue where
  dumps := dumps
  loads := loads
  loads_dumps := loads_dumps
  loads_empty := by decide

/-- Values are told apart by what is written of them. -/
instance : DecidableEq JsonValue := fun v w =>
  decidable_of_iff (v.dumps .spaced = w.dumps .spaced)
    ⟨fun same => JsonCodec.dumps_injective .spaced same, fun same => by rw [same]⟩

end JsonValue
