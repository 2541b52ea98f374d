import DuraLLM.Lib.JsonValue

/-! # JSON over several lines

What a JSON library reads keeps the order in which the keys of an object first
came, with the last value of each.  Written with an indentation, every item has
a line of its own.  How a number is spelled when it is written again is a matter
of the number type, so the reader is given it.
-/

namespace JsonMembers

variable {V : Type*}

/-- Assign to a key in the place where it is, or behind all others. -/
def assign (key : String) (v : V) : List (String × V) → List (String × V)
  | [] => [(key, v)]
  | (other, w) :: members =>
      if key = other then (key, v) :: members else (other, w) :: assign key v members

theorem lookup_assign_ne {key other : String} (ne : other ≠ key) (v : V)
    (members : List (String × V)) : (assign key v members).lookup other = members.lookup other := by
  have apart : (other == key) = false := beq_eq_false_iff_ne.mpr ne
  induction members with
  | nil => simp [assign, List.lookup_cons, apart]
  | cons m members ih =>
      obtain ⟨name, w⟩ := m
      rw [assign]
      split
      · next same =>
        subst same
        simp [List.lookup_cons, apart]
      · simp only [List.lookup_cons, ih]

theorem lookup_assign_self (key : String) (v : V) (members : List (String × V)) :
    (assign key v members).lookup key = some v := by
  induction members with
  | nil => simp [assign]
  | cons m members ih =>
      obtain ⟨name, w⟩ := m
      rw [assign]
      split
      · simp
      · next other => simp [List.lookup_cons, beq_eq_false_iff_ne.mpr other, ih]

/-- Every key once, with its last value. -/
def keyed (members : List (String × V)) : List (String × V) :=
  members.foldl (fun done m => assign m.1 m.2 done) []

end JsonMembers

/-- A value whose scalars are kept as they are written. -/
inductive JsonTree where
  | scalar (text : List Char)
  | str (s : String)
  | arr (items : List JsonTree)
  | obj (members : List (String × JsonTree))

namespace JsonTree

open JsonRaw (skip)

section Reading

-- What is written for the number that a text stands for, if it stands for one.
variable (number : List Char → Option (List Char))

def words : List (List Char) := [['n', 'u', 'l', 'l'], ['t', 'r', 'u', 'e'], ['f', 'a', 'l', 's', 'e']]

mutual

/-- A value at the start of the text, and what follows it. -/
def read : Nat → List Char → Option (JsonTree × List Char)
  | 0, _ => none
  | fuel + 1, chars =>
      match chars with
      | '\x22' :: rest => (JsonString.read rest).map fun p => (.str p.1, p.2)
      | '[' :: rest =>
          match skip rest with
          | ']' :: rest => some (.arr [], rest)
          | rest => (readItems fuel rest).map fun p => (.arr p.1, p.2)
      | '\x7b' :: rest =>
          match skip rest with
          | '\x7d' :: rest => some (.obj [], rest)
          | rest => (readMembers fuel rest).map fun p => (.obj (JsonMembers.keyed p.1), p.2)
      | rest =>
          let token := rest.takeWhile JsonScalar.tokenChar
          (if token ∈ words then some token else number token).map fun text =>
            (.scalar text, rest.dropWhile JsonScalar.tokenChar)

def readItems : Nat → List Char → Option (List JsonTree × List Char)
  | 0, _ => none
  | fuel + 1, chars => do
      let (v, rest) ← read fuel chars
      match skip rest with
      | ']' :: rest => return ([v], rest)
      | ',' :: rest => (readItems fuel (skip rest)).map fun p => (v :: p.1, p.2)
      | _ => none

def readMembers : Nat → List Char → Option (List (String × JsonTree) × List Char)
  | 0, _ => none
  | fuel + 1, chars =>
      match chars with
      | '\x22' :: rest => do
          let (key, rest) ← JsonString.read rest
          match skip rest with
          | ':' :: rest => do
              let (v, rest) ← read fuel (skip rest)
              match skip rest with
              | '\x7d' :: rest => return ([(key, v)], rest)
              | ',' :: rest => (readMembers fuel (skip rest)).map fun p => ((key, v) :: p.1, p.2)
              | _ => none
          | _ => none
      | _ => none

end

/-- `json.loads` -/
def decode (text : String) : Option JsonTree :=
  match read number (text.toList.length + 1) (skip text.toList) with
  | some (tree, rest) => if skip rest = [] then some tree else none
  | none => none

end Reading

/-- A new line with the indentation of its depth. -/
def newline (depth : Nat) : List Char := '\n' :: List.replicate (2 * depth) ' '

mutual

/-- `json.dumps(value, ensure_ascii=False, indent=2)` -/
def layout (depth : Nat) : JsonTree → List Char
  | .scalar text => text
  | .str s => JsonString.write false s
  | .arr [] => ['[', ']']
  | .arr (v :: items) =>
      '[' :: (newline (depth + 1) ++ v.layout (depth + 1) ++ layoutItems depth items)
  | .obj [] => ['\x7b', '\x7d']
  | .obj ((key, v) :: members) =>
      '\x7b' :: (newline (depth + 1) ++ JsonString.write false key ++ [':', ' '] ++
        v.layout (depth + 1) ++ layoutMembers depth members)

/-- The items after the first. -/
def layoutItems (depth : Nat) : List JsonTree → List Char
  | [] => newline depth ++ [']']
  | v :: items => ',' :: (newline (depth + 1) ++ v.layout (depth + 1) ++ layoutItems depth items)

def layoutMembers (depth : Nat) : List (String × JsonTree) → List Char
  | [] => newline depth ++ ['\x7d']
  | (key, v) :: members =>
      ',' :: (newline (depth + 1) ++ JsonString.write false key ++ [':', ' '] ++
        v.layout (depth + 1) ++ layoutMembers depth members)

end

example : (decode (fun _ => some ['1']) "\x7b\"a\": [1.0], \"b\": \x7b\x7d, \"a\": []\x7d").map
      (fun v => String.ofList (v.layout 0)) =
    some "\x7b\n  \"a\": [],\n  \"b\": \x7b\x7d\n\x7d" := by decide +kernel

end JsonTree
