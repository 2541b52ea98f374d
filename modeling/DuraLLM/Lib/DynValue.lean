import DuraLLM.Lib.JsonValue

/-! # Values of a dynamic language

What a decoder or a literal evaluator of a scripting language hands over.  A
dictionary is the list of its entries in the order of insertion.  Floats and
the values that JSON has no text for, such as bytes and sets, are parameters,
and so is what the language says about them.
-/

/-! ## Entries -/

namespace Entries

variable {K V : Type} [DecidableEq K]

def keys (entries : List (K × V)) : List K := entries.map Prod.fst

def get (key : K) (entries : List (K × V)) : Option V := entries.lookup key

/-- Assign in place when the key is there, at the end otherwise. -/
def set (key : K) (value : V) : List (K × V) → List (K × V)
  | [] => [(key, value)]
  | (other, old) :: entries =>
      if other = key then (other, value) :: entries else (other, old) :: set key value entries

@[simp] theorem get_nil (key : K) : get key ([] : List (K × V)) = none := rfl

theorem get_cons (key other : K) (value : V) (entries : List (K × V)) :
    get key ((other, value) :: entries) = if other = key then some value else get key entries := by
  by_cases same : other = key
  · simp [get, same]
  · have different : (key == other) = false := by simpa using fun eq => same eq.symm
    simp [get, List.lookup_cons, different, same]

theorem mem_of_get {key : K} {value : V} {entries : List (K × V)}
    (found : get key entries = some value) : (key, value) ∈ entries := by
  induction entries with
  | nil => cases found
  | cons entry entries ih =>
      obtain ⟨other, old⟩ := entry
      rw [get_cons] at found
      split at found
      · next same =>
        subst same
        cases found
        exact List.mem_cons_self
      · exact List.mem_cons_of_mem _ (ih found)

theorem get_eq_none_iff {key : K} {entries : List (K × V)} :
    get key entries = none ↔ key ∉ keys entries := by
  induction entries with
  | nil => simp [keys]
  | cons entry entries ih =>
      obtain ⟨other, old⟩ := entry
      rw [get_cons, keys, List.map_cons, List.mem_cons]
      split
      · next same => simp [same]
      · next different =>
        rw [ih, keys]
        have other_ne : ¬key = other := fun same => different same.symm
        simp [other_ne]

theorem get_isSome_iff {key : K} {entries : List (K × V)} :
    (get key entries).isSome ↔ key ∈ keys entries := by
  rw [← not_iff_not, ← get_eq_none_iff]
  simp

/-- Under distinct keys an entry is what its key gives. -/
theorem get_of_mem {key : K} {value : V} {entries : List (K × V)}
    (distinct : (keys entries).Nodup) (member : (key, value) ∈ entries) :
    get key entries = some value := by
  induction entries with
  | nil => cases member
  | cons entry entries ih =>
      obtain ⟨other, old⟩ := entry
      obtain ⟨fresh, distinct⟩ := List.nodup_cons.mp distinct
      rw [get_cons]
      cases List.mem_cons.mp member with
      | inl here =>
          cases here
          rw [if_pos rfl]
      | inr later =>
          have different : ¬other = key := by
            intro same
            subst same
            exact fresh (List.mem_map.mpr ⟨(other, value), later, rfl⟩)
          rw [if_neg different]
          exact ih distinct later

theorem get_set_self (key : K) (value : V) (entries : List (K × V)) :
    get key (set key value entries) = some value := by
  induction entries with
  | nil => simp [set, get_cons]
  | cons entry entries ih =>
      obtain ⟨other, old⟩ := entry
      rw [set]
      split
      · next same => rw [get_cons, if_pos same]
      · next different => rw [get_cons, if_neg different, ih]

theorem get_set_of_ne {key other : K} (different : other ≠ key) (value : V)
    (entries : List (K × V)) : get other (set key value entries) = get other entries := by
  induction entries with
  | nil => simp [set, get_cons, different.symm]
  | cons entry entries ih =>
      obtain ⟨name, old⟩ := entry
      rw [set]
      split
      · next same =>
        subst same
        rw [get_cons, get_cons, if_neg different.symm, if_neg different.symm]
      · rw [get_cons, get_cons, ih]

/-- An assignment to a key that is there leaves all keys in their places. -/
theorem keys_set {key : K} {entries : List (K × V)} (present : (get key entries).isSome) (value : V) :
    keys (set key value entries) = keys entries := by
  induction entries with
  | nil => cases present
  | cons entry entries ih =>
      obtain ⟨other, old⟩ := entry
      rw [get_cons] at present
      rw [set]
      split
      · rfl
      · next different =>
        rw [if_neg different] at present
        exact congrArg (other :: ·) (ih present)

theorem set_get {key : K} {value : V} {entries : List (K × V)}
    (found : get key entries = some value) : set key value entries = entries := by
  induction entries with
  | nil => cases found
  | cons entry entries ih =>
      obtain ⟨other, old⟩ := entry
      rw [get_cons] at found
      rw [set]
      split
      · next same =>
        rw [if_pos same] at found
        cases found
        rfl
      · next different =>
        rw [if_neg different] at found
        rw [ih found]

end Entries

/-! ## Values -/

/-- A key of a dictionary: a text, or any other value that can be one. -/
inductive DynKey (X : Type) where
  | text (s : String)
  | other (x : X)
  deriving DecidableEq

inductive DynValue (F X : Type) where
  | none
  | bool (b : Bool)
  | int (n : Int)
  | float (f : F)
  | str (s : String)
  | list (items : List (DynValue F X))
  | dict (entries : List (DynKey X × DynValue F X))
  | other (x : X)

/-- The entries of a dictionary. -/
abbrev DynEntries (F X : Type) := List (DynKey X × DynValue F X)

namespace DynValue

variable {F X : Type}

/-- Lists and dictionaries are shared when the value that holds them is copied. -/
def isContainer : DynValue F X → Bool
  | .list _ | .dict _ => true
  | _ => false

def isStr (text : String) : DynValue F X → Bool
  | .str s => s = text
  | _ => false

mutual

/-- How deep containers are nested in the value. -/
def depth : DynValue F X → Nat
  | .list items => depthOfItems items + 1
  | .dict entries => depthOfEntries entries + 1
  | _ => 0

def depthOfItems : List (DynValue F X) → Nat
  | [] => 0
  | item :: items => max item.depth (depthOfItems items)

def depthOfEntries : List (DynKey X × DynValue F X) → Nat
  | [] => 0
  | (_, value) :: entries => max value.depth (depthOfEntries entries)

end

mutual

/-- The keys of every dictionary in the value are distinct. -/
def Proper : DynValue F X → Prop
  | .list items => ProperItems items
  | .dict entries => (Entries.keys entries).Nodup ∧ ProperEntries entries
  | _ => True

def ProperItems : List (DynValue F X) → Prop
  | [] => True
  | item :: items => item.Proper ∧ ProperItems items

def ProperEntries : List (DynKey X × DynValue F X) → Prop
  | [] => True
  | (_, value) :: entries => value.Proper ∧ ProperEntries entries

end

theorem depth_mem {key : DynKey X} {value : DynValue F X} {entries : DynEntries F X}
    (member : (key, value) ∈ entries) : value.depth < (DynValue.dict entries).depth := by
  rw [depth]
  induction entries with
  | nil => cases member
  | cons entry entries ih =>
      obtain ⟨other, old⟩ := entry
      rw [depthOfEntries]
      cases List.mem_cons.mp member with
      | inl here =>
          cases here
          omega
      | inr later =>
          have below := ih later
          omega

theorem ProperEntries.mem {key : DynKey X} {value : DynValue F X} {entries : DynEntries F X}
    (proper : ProperEntries entries) (member : (key, value) ∈ entries) : value.Proper := by
  induction entries with
  | nil => cases member
  | cons entry entries ih =>
      obtain ⟨other, old⟩ := entry
      cases List.mem_cons.mp member with
      | inl here =>
          cases here
          exact proper.1
      | inr later => exact ih proper.2 later

end DynValue

/-! ## Places in a value -/

/-- One step into a container. -/
inductive DynStep (X : Type) where
  | key (k : DynKey X)
  | index (i : Nat)
  deriving DecidableEq

abbrev DynPath (X : Type) := List (DynStep X)

namespace DynValue

variable {F X : Type} [DecidableEq X]

def child : DynValue F X → DynStep X → Option (DynValue F X)
  | .dict entries, .key k => Entries.get k entries
  | .list items, .index i => items[i]?
  | _, _ => .none

/-- What the value holds at a path. -/
def valueAt : DynValue F X → DynPath X → Option (DynValue F X)
  | v, [] => some v
  | v, step :: path => (v.child step).bind fun inner => inner.valueAt path

/-- What a container is like from outside: its keys or its length. -/
inductive Shape (X : Type) where
  | scalar
  | list (length : Nat)
  | dict (keys : List (DynKey X))
  deriving DecidableEq

def shape : DynValue F X → Shape X
  | .list items => .list items.length
  | .dict entries => .dict (Entries.keys entries)
  | _ => .scalar

theorem child_of_scalar {v : DynValue F X} (scalar : v.isContainer = false) (step : DynStep X) :
    v.child step = .none := by
  cases v <;> cases step <;> first | rfl | cases scalar

/-- There is nothing below a scalar. -/
theorem valueAt_of_scalar {v : DynValue F X} (scalar : v.isContainer = false) (step : DynStep X)
    (path : DynPath X) : v.valueAt (step :: path) = .none := by
  rw [valueAt, child_of_scalar scalar]
  rfl

omit [DecidableEq X] in
theorem shape_of_scalar {v : DynValue F X} (scalar : v.isContainer = false) :
    v.shape = .scalar := by
  cases v <;> first | rfl | cases scalar

end DynValue

/-! ## The runtime -/

/-- What operations of the language raise. -/
inductive DynError where
  | attributeError
  | typeError
  | valueError
  | recursionError
  deriving DecidableEq, Repr

/-- The tables and library functions of the language.  `none` stands for an
    exception where a result is optional. -/
structure DynRuntime (F X : Type) where
  /-- `str.isdigit` of one character; superscripts count. -/
  isDigit : Char → Bool
  /-- The digits that `int` reads. -/
  decimal : Char → Option Nat
  /-- The most digits that conversions between integers and texts take. -/
  maxStrDigits : Nat
  /-- `float(text)` -/
  parseFloat : String → Option F
  /-- `str(f)` -/
  floatStr : F → String
  /-- The text of a float in JSON, which for some floats no JSON reader has to take. -/
  floatJson : F → String
  floatTruthy : F → Bool
  /-- `ast.literal_eval` -/
  literalEval : String → Option (DynValue F X)
  /-- `repr` of a list of values. -/
  reprList : List (DynValue F X) → String
  /-- The key that a value other than texts, lists and dictionaries is looked up by. -/
  otherKey : DynValue F X → Option (DynKey X)
  /-- The text of a key in a formatted string. -/
  otherStr : X → String
  otherType : X → String
  otherTruthy : X → Bool
  /-- The values that an iteration yields. -/
  otherItems : X → Option (List (DynValue F X))
  /-- `json.dumps` of a value. -/
  otherJson : X → Option String
  /-- The member name that `json.dumps` makes of a key. -/
  otherKeyJson : X → Option String

namespace DynRuntime

variable {F X : Type} (rt : DynRuntime F X)

/-- `type(value).__name__` -/
def typeName : DynValue F X → String
  | .none => "NoneType"
  | .bool _ => "bool"
  | .int _ => "int"
  | .float _ => "float"
  | .str _ => "str"
  | .list _ => "list"
  | .dict _ => "dict"
  | .other x => rt.otherType x

def truthy : DynValue F X → Bool
  | .none => false
  | .bool b => b
  | .int n => n ≠ 0
  | .float f => rt.floatTruthy f
  | .str s => s ≠ ""
  | .list items => !items.isEmpty
  | .dict entries => !entries.isEmpty
  | .other x => rt.otherTruthy x

/-- The key that a value is looked up by; lists and dictionaries cannot be keys. -/
def asKey : DynValue F X → Option (DynKey X)
  | .str s => some (.text s)
  | .list _ | .dict _ => none
  | v => rt.otherKey v

/-- A key as a value. -/
def keyValue : DynKey X → DynValue F X
  | .text s => .str s
  | .other x => .other x

def keyStr : DynKey X → String
  | .text s => s
  | .other x => rt.otherStr x

/-- The values that `for item in value` goes through. -/
def items : DynValue F X → Option (List (DynValue F X))
  | .str s => some (s.toList.map fun c => .str (String.ofList [c]))
  | .list items => some items
  | .dict entries => some (entries.map fun entry => keyValue entry.1)
  | .other x => rt.otherItems x
  | _ => none

/-- `text.isdigit()` -/
def isDigitText (text : String) : Bool := text ≠ "" && text.toList.all rt.isDigit

/-- `int(text)` of a text of digits. -/
def intOfDigits (text : String) : Option Int :=
  match text.toList.mapM rt.decimal with
  | some digits =>
      if digits.length ≤ rt.maxStrDigits then some (digits.foldl (fun n d => 10 * n + d) 0)
      else none
  | none => none

/-- `str(n)` -/
def intStr (n : Int) : Option String :=
  if (Nat.toDigits 10 n.natAbs).length ≤ rt.maxStrDigits then
    some (String.ofList (JsonScalar.text (.int n)))
  else none

end DynRuntime
