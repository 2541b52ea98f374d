import DuraLLM.Lib.DynValue

/-! # JSON text of dynamic values

`json.loads` and `json.dumps` on the values of a dynamic language.  The reader
follows the grammar of the decoder to the letter: what numbers look like, which
names stand for floats without a JSON form, and which escapes a string literal
has.  A strict reader refuses control characters inside string literals.  Of two
members with one name the later counts, in the place of the earlier.
-/

/-! ## Reading -/

namespace DynJson

/-- The code units of a string literal after its opening quote, and what
    follows the closing one. -/
def readUnits (strict : Bool) : List Char → Option (List Nat × List Char)
  | '\x22' :: rest => some ([], rest)
  | '\x5c' :: 'u' :: a :: b :: c :: d :: rest => do
      let unit ← JsonString.readHex4 a b c d
      let (units, rest) ← readUnits strict rest
      return (unit :: units, rest)
  | '\x5c' :: c :: rest => do
      let unit ← JsonString.simpleEscape c
      let (units, rest) ← readUnits strict rest
      return (unit :: units, rest)
  | c :: rest =>
      if strict && c.toNat < 32 then none
      else do
        let (units, rest) ← readUnits strict rest
        return (c.toNat :: units, rest)
  | [] => none

def readString (strict : Bool) (chars : List Char) : Option (String × List Char) := do
  let (units, rest) ← readUnits strict chars
  let s ← JsonString.join units
  return (String.ofList s, rest)

/-! ### Numbers -/

/-- Digits without a leading zero. -/
def matchNat : List Char → Option (List Char × List Char)
  | '0' :: rest => some (['0'], rest)
  | c :: rest =>
      if c.isDigit then some (c :: rest.takeWhile Char.isDigit, rest.dropWhile Char.isDigit)
      else none
  | [] => none

def matchInt : List Char → Option (List Char × List Char)
  | '-' :: rest => (matchNat rest).map fun p => ('-' :: p.1, p.2)
  | rest => matchNat rest

/-- A point with digits behind it. -/
def matchFraction : List Char → List Char × List Char
  | '.' :: rest =>
      let digits := rest.takeWhile Char.isDigit
      if digits = [] then ([], '.' :: rest) else ('.' :: digits, rest.dropWhile Char.isDigit)
  | rest => ([], rest)

def matchSign : List Char → List Char × List Char
  | '+' :: rest => (['+'], rest)
  | '-' :: rest => (['-'], rest)
  | rest => ([], rest)

def matchExponent : List Char → List Char × List Char
  | c :: rest =>
      let (sign, power) := matchSign rest
      let digits := power.takeWhile Char.isDigit
      if (c = 'e' ∨ c = 'E') ∧ digits ≠ [] then
        (c :: (sign ++ digits), power.dropWhile Char.isDigit)
      else ([], c :: rest)
  | [] => ([], [])

end DynJson

namespace DynRuntime

open DynJson

variable {F X : Type} [DecidableEq X] (rt : DynRuntime F X)

/-- `int` of a number without fraction and exponent. -/
def intOfToken (token : List Char) : Option Int :=
  if (token.filter Char.isDigit).length ≤ rt.maxStrDigits then JsonScalar.readInt token else none

def readNumber (chars : List Char) : Option (DynValue F X × List Char) := do
  let (whole, rest) ← matchInt chars
  let (fraction, rest) := matchFraction rest
  let (exponent, rest) := matchExponent rest
  if fraction = [] ∧ exponent = [] then
    let n ← rt.intOfToken whole
    return (.int n, rest)
  else
    let f ← rt.parseFloat (String.ofList (whole ++ fraction ++ exponent))
    return (.float f, rest)

/-- The names of values, and numbers. -/
def readScalar : List Char → Option (DynValue F X × List Char)
  | 'n' :: 'u' :: 'l' :: 'l' :: rest => some (.none, rest)
  | 't' :: 'r' :: 'u' :: 'e' :: rest => some (.bool true, rest)
  | 'f' :: 'a' :: 'l' :: 's' :: 'e' :: rest => some (.bool false, rest)
  | 'N' :: 'a' :: 'N' :: rest => (rt.parseFloat "NaN").map fun f => (.float f, rest)
  | 'I' :: 'n' :: 'f' :: 'i' :: 'n' :: 'i' :: 't' :: 'y' :: rest =>
      (rt.parseFloat "Infinity").map fun f => (.float f, rest)
  | '-' :: 'I' :: 'n' :: 'f' :: 'i' :: 'n' :: 'i' :: 't' :: 'y' :: rest =>
      (rt.parseFloat "-Infinity").map fun f => (.float f, rest)
  | rest => readNumber rt rest

/-- The members of an object as a dictionary. -/
def ofMembers (members : List (String × DynValue F X)) : DynEntries F X :=
  members.foldl (fun entries m => Entries.set (.text m.1) m.2 entries) []

mutual

/-- A value at the start of the text, and what follows it. -/
def readValue (strict : Bool) : Nat → List Char → Option (DynValue F X × List Char)
  | 0, _ => none
  | fuel + 1, chars =>
      match chars with
      | '\x22' :: rest => (readString strict rest).map fun p => (.str p.1, p.2)
      | '[' :: rest =>
          match JsonRaw.skip rest with
          | ']' :: rest => some (.list [], rest)
          | rest => (readItems strict fuel rest).map fun p => (.list p.1, p.2)
      | '\x7b' :: rest =>
          match JsonRaw.skip rest with
          | '\x7d' :: rest => some (.dict [], rest)
          | rest => (readMembers strict fuel rest).map fun p => (.dict (ofMembers p.1), p.2)
      | rest => rt.readScalar rest

def readItems (strict : Bool) : Nat → List Char → Option (List (DynValue F X) × List Char)
  | 0, _ => none
  | fuel + 1, chars => do
      let (v, rest) ← readValue strict fuel chars
      match JsonRaw.skip rest with
      | ']' :: rest => return ([v], rest)
      | ',' :: rest =>
          (readItems strict fuel (JsonRaw.skip rest)).map fun p => (v :: p.1, p.2)
      | _ => none

def readMembers (strict : Bool) :
    Nat → List Char → Option (List (String × DynValue F X) × List Char)
  | 0, _ => none
  | fuel + 1, chars =>
      match chars with
      | '\x22' :: rest => do
          let (key, rest) ← readString strict rest
          match JsonRaw.skip rest with
          | ':' :: rest => do
              let (v, rest) ← readValue strict fuel (JsonRaw.skip rest)
              match JsonRaw.skip rest with
              | '\x7d' :: rest => return ([(key, v)], rest)
              | ',' :: rest =>
                  (readMembers strict fuel (JsonRaw.skip rest)).map fun p =>
                    ((key, v) :: p.1, p.2)
              | _ => none
          | _ => none
      | _ => none

end

/-- `json.loads(text, strict=strict)`.  A byte order mark in front is refused. -/
def loads (strict : Bool) (text : String) : Option (DynValue F X) :=
  if text.toList.head? = some '\ufeff' then none
  else
    match readValue rt strict (text.toList.length + 1) (JsonRaw.skip text.toList) with
    | some (v, rest) => if JsonRaw.skip rest = [] then some v else none
    | none => none

/-! ## Writing -/

def raising {α : Type} (error : DynError) : Option α → Except DynError α
  | some a => .ok a
  | none => .error error

def writeKey : DynKey X → Except DynError (List Char)
  | .text s => .ok (JsonString.write false s)
  | .other x => (raising .typeError (rt.otherKeyJson x)).map (JsonString.write false)

mutual

def write : DynValue F X → Except DynError (List Char)
  | .none => .ok "null".toList
  | .bool true => .ok "true".toList
  | .bool false => .ok "false".toList
  | .int n => (raising .valueError (rt.intStr n)).map String.toList
  | .float f => .ok (rt.floatJson f).toList
  | .str s => .ok (JsonString.write false s)
  | .list [] => .ok ['[', ']']
  | .list (v :: items) => do return '[' :: ((← write v) ++ (← writeItems items))
  | .dict [] => .ok ['\x7b', '\x7d']
  | .dict ((key, v) :: entries) => do
      return '\x7b' :: ((← rt.writeKey key) ++ [':', ' '] ++ (← write v) ++ (← writeEntries entries))
  | .other x => (raising .typeError (rt.otherJson x)).map String.toList

/-- The items after the first. -/
def writeItems : List (DynValue F X) → Except DynError (List Char)
  | [] => .ok [']']
  | v :: items => do return [',', ' '] ++ (← write v) ++ (← writeItems items)

def writeEntries : List (DynKey X × DynValue F X) → Except DynError (List Char)
  | [] => .ok ['\x7d']
  | (key, v) :: entries => do
      return [',', ' '] ++ (← rt.writeKey key) ++ [':', ' '] ++ (← write v) ++
        (← writeEntries entries)

end

/-- `json.dumps(value, ensure_ascii=False)` -/
def dumps (v : DynValue F X) : Except DynError String := (rt.write v).map String.ofList

end DynRuntime

/-- The runtime on ASCII texts and superscript digits.  Floats are kept as their
    texts, and nothing is a literal that is not JSON. -/
def DynRuntime.ascii : DynRuntime String Empty where
  isDigit c := c.isDigit || c = '²' || c = '³' || c = '¹'
  decimal c := if c.isDigit then some (c.toNat - 48) else none
  maxStrDigits := 4300
  parseFloat text :=
    match DynJson.matchInt text.toList with
    | some (_, rest) =>
        if (DynJson.matchExponent (DynJson.matchFraction rest).2).2 = [] then some text else none
    | none => if text = "NaN" ∨ text = "Infinity" ∨ text = "-Infinity" then some text else none
  floatStr f := f
  floatJson f := f
  floatTruthy f := f.toList.any fun c => c.isDigit && c ≠ '0'
  literalEval _ := none
  reprList _ := "[...]"
  otherKey _ := none
  otherStr x := x.elim
  otherType x := x.elim
  otherTruthy x := x.elim
  otherItems x := x.elim
  otherJson x := x.elim
  otherKeyJson x := x.elim
