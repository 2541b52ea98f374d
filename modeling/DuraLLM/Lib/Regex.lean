import Mathlib.Data.List.Basic

/-! # Regular expressions over characters

Patterns with sets of characters, repetition and word edges, and whether a text
has a match.  Which characters are digits or belong to words, and what their
lower case is, is a table that the patterns do not fix.
-/

/-- The character table of a text library. -/
structure CharTable where
  digit : Char → Bool
  word : Char → Bool
  space : Char → Bool
  lower : Char → Char

inductive Regex where
  | empty
  | char (accepts : CharTable → Char → Bool)
  | wordEdge
  | seq (first second : Regex)
  | either (first second : Regex)
  | star (r : Regex)

namespace Regex

/-- A place in a text: the character in front of it and what follows. -/
structure Place where
  before : Option Char
  rest : List Char

/-- `step` repeated, at most `n` times. -/
def repeated (step : Place → List Place) : Nat → Place → List Place
  | 0, place => [place]
  | n + 1, place => place :: (step place).flatMap (repeated step n)

/-- The places where a match that begins here may end. -/
def ends (table : CharTable) : Regex → Place → List Place
  | .empty, place => [place]
  | .char accepts, place =>
      match place.rest with
      | [] => []
      | c :: rest => if accepts table c then [⟨some c, rest⟩] else []
  | .wordEdge, place =>
      let inside (c : Option Char) : Bool := c.any table.word
      if inside place.before ≠ inside place.rest.head? then [place] else []
  | .seq first second, place => (ends table first place).flatMap (ends table second)
  | .either first second, place => ends table first place ++ ends table second place
  | .star r, place =>
      repeated (fun p => (ends table r p).filter fun q => q.rest.length < p.rest.length)
        place.rest.length place

/-- A match at the start of the text. -/
def startsText (table : CharTable) (r : Regex) (text : String) : Bool :=
  !(ends table r ⟨none, text.toList⟩).isEmpty

/-- A match of the whole text. -/
def isText (table : CharTable) (r : Regex) (text : String) : Bool :=
  (ends table r ⟨none, text.toList⟩).any (·.rest.isEmpty)

/-- A match at the start of the text that runs to its end or to a last line break,
    as `$` asks. -/
def fillsText (table : CharTable) (r : Regex) (text : String) : Bool :=
  (ends table r ⟨none, text.toList⟩).any fun place => place.rest = [] || place.rest = ['\n']

def foundIn (table : CharTable) (r : Regex) : Option Char → List Char → Bool
  | before, [] => !(ends table r ⟨before, []⟩).isEmpty
  | before, c :: rest =>
      !(ends table r ⟨before, c :: rest⟩).isEmpty || foundIn table r (some c) rest

/-- A match anywhere in the text that runs to its end or to a last line break. -/
def closesFrom (table : CharTable) (r : Regex) : Option Char → List Char → Bool
  | before, [] => !(ends table r ⟨before, []⟩).isEmpty
  | before, c :: rest =>
      (ends table r ⟨before, c :: rest⟩).any (fun place => place.rest = [] || place.rest = ['\n']) ||
        closesFrom table r (some c) rest

def closesText (table : CharTable) (r : Regex) (text : String) : Bool :=
  r.closesFrom table none text.toList

/-- A match anywhere in the text. -/
def inText (table : CharTable) (r : Regex) (text : String) : Bool :=
  r.foundIn table none text.toList

/-! ## Building blocks -/

def oneOf (chars : String) : Regex := .char fun _ c => c ∈ chars.toList

def digit : Regex := .char (·.digit)

def space : Regex := .char (·.space)

def plus (r : Regex) : Regex := .seq r (.star r)

def maybe (r : Regex) : Regex := .either r .empty

def all (parts : List Regex) : Regex := parts.foldr .seq .empty

def any (r : Regex) (more : List Regex) : Regex := more.foldl .either r

/-- The text as it stands. -/
def literal (text : String) : Regex := all (text.toList.map fun c => .char fun _ d => d = c)

/-- The text in any letter case. -/
def folded (text : String) : Regex :=
  all (text.toList.map fun c => .char fun table d => table.lower d = table.lower c)

end Regex

/-- The table of the ASCII characters. -/
def CharTable.ascii : CharTable where
  digit := Char.isDigit
  word c := c.isAlphanum || c = '_'
  space c := c = ' ' || ('\t' ≤ c && c ≤ '\r')
  lower := Char.toLower

/-- A property of the ASCII characters is checked on each. -/
theorem ascii_cases {P : Char → Prop} (each : ∀ n < 128, P (Char.ofNat n)) {c : Char}
    (ascii : c.toNat < 128) : P c := by
  have here := each c.toNat ascii
  rwa [Char.ofNat_toNat] at here

theorem toLower_of_not_ascii {c : Char} (large : 128 ≤ c.toNat) : c.toLower = c := by
  unfold Char.toLower
  split
  · next upper =>
    have high : c.val.toNat ≤ 'Z'.val.toNat := UInt32.le_iff_toNat_le.mp upper.2
    have last : 'Z'.val.toNat = 90 := by decide
    have value : c.val.toNat = c.toNat := rfl
    omega
  · rfl

example : (Regex.folded "error").inText .ascii "two Errors" = true := by decide +kernel
