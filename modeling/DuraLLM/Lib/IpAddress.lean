import Mathlib.Algebra.Group.Nat.Defs
import Mathlib.Data.List.Basic

/-! # Spellings of IP addresses

The texts that a resolver takes for an address: the numbers-and-dots forms of
`inet_aton`, and the forms of version 6 with one run of zero groups left out, with
the last two groups in decimal, and with a zone.
-/

inductive IpAddress where
  | v4 (bits : BitVec 32)
  | v6 (bits : BitVec 128)
  deriving DecidableEq

namespace IpAddress

/-! ## Numbers -/

def digitValue (c : Char) : Option Nat :=
  if '0' ≤ c ∧ c ≤ '9' then some (c.toNat - '0'.toNat)
  else if 'a' ≤ c ∧ c ≤ 'f' then some (c.toNat - 'a'.toNat + 10)
  else if 'A' ≤ c ∧ c ≤ 'F' then some (c.toNat - 'A'.toNat + 10)
  else none

/-- The text is not empty, and each of its characters is a digit of the base. -/
def readDigits (base : Nat) (text : List Char) : Option Nat :=
  if text = [] then none
  else do
    let digits ← text.mapM fun c => (digitValue c).filter (· < base)
    return digits.foldl (fun n digit => n * base + digit) 0

/-- A number as C writes it: hexadecimal, octal or decimal. -/
def readNumber : List Char → Option Nat
  | '0' :: 'x' :: digits => readDigits 16 digits
  | '0' :: 'X' :: digits => readDigits 16 digits
  | '0' :: digit :: digits => readDigits 8 (digit :: digits)
  | digits => readDigits 10 digits

/-! ## Version 4 -/

/-- The value of up to `bytes` parts: one byte each, and the last fills up the rest. -/
def joinParts : (bytes : Nat) → List Nat → Option Nat
  | bytes, [last] => if last < 256 ^ bytes then some last else none
  | bytes + 1, part :: parts =>
      if part < 256 then (joinParts bytes parts).map (part * 256 ^ bytes + ·) else none
  | _, _ => none

def inetAton (text : List Char) : Option (BitVec 32) := do
  let parts ← (text.splitOn '.').mapM readNumber
  return BitVec.ofNat 32 (← joinParts 4 parts)

/-! ## Version 6 -/

/-- Four decimal numbers of one byte, without leading zeros. -/
def readQuad (text : List Char) : Option Nat := do
  let parts ← (text.splitOn '.').mapM fun part =>
    if part.head? = some '0' ∧ part ≠ ['0'] then none else readDigits 10 part
  if parts.length = 4 then joinParts 4 parts else none

/-- One to four hexadecimal digits. -/
def readGroup (text : List Char) : Option Nat :=
  if text.length ≤ 4 then readDigits 16 text else none

/-- Groups between colons; the last two may be written as in version 4. -/
def readGroups : List (List Char) → Option (List Nat)
  | [] => some []
  | [last] =>
      if '.' ∈ last then (readQuad last).map fun n => [n / 65536, n % 65536]
      else (readGroup last).map fun n => [n]
  | group :: groups => do return (← readGroup group) :: (← readGroups groups)

/-- The text on both sides of the first two colons in a row. -/
def cutColons : List Char → Option (List Char × List Char)
  | [] => none
  | ':' :: ':' :: rest => some ([], rest)
  | c :: rest => (cutColons rest).map fun cut => (c :: cut.1, cut.2)

/-- The groups of a side, of which there may be none. -/
def readSide (read : List (List Char) → Option (List Nat)) (side : List Char) : Option (List Nat) :=
  if side = [] then some [] else read (side.splitOn ':')

def inetPton (text : List Char) : Option (BitVec 128) := do
  let groups ←
    match cutColons text with
    | none => (readGroups (text.splitOn ':')).filter (·.length = 8)
    | some (left, right) => do
        let front ← readSide (·.mapM readGroup) left
        let back ← readSide readGroups right
        if front.length + back.length ≤ 7 then
          some (front ++ List.replicate (8 - front.length - back.length) 0 ++ back)
        else none
  return BitVec.ofNat 128 (groups.foldl (fun n group => n * 65536 + group) 0)

/-- A zone is ASCII text behind a percent sign. -/
def withoutZone (text : List Char) : List Char := text.takeWhile (· ≠ '%')

def read (text : List Char) : Option IpAddress :=
  match inetAton text with
  | some bits => some (.v4 bits)
  | none =>
      if text.all fun c => c.toNat < 128 then (inetPton (withoutZone text)).map .v6 else none

/-- The text spells the address, with or without a dot at its end. -/
def Spells (text : List Char) (address : IpAddress) : Prop :=
  read text = some address ∨ ∃ front, text = front ++ ['.'] ∧ read front = some address

/-! ## What a spelling consists of -/

/-- The characters of numbers in any base. -/
def isNumberChar (c : Char) : Bool := (digitValue c).isSome || c = 'x' || c = 'X'

theorem isNumberChar_ascii {c : Char} (number : isNumberChar c = true) : c.toNat < 128 := by
  have value : ∀ d : Char, d.toNat = d.val.toNat := fun _ => rfl
  simp only [isNumberChar, digitValue, Bool.or_eq_true, decide_eq_true_eq] at number
  rcases number with (digit | rfl) | rfl
  · split at digit
    · next bounds =>
      have high := UInt32.le_iff_toNat_le.mp bounds.2
      rw [← value, ← value] at high
      exact Nat.lt_of_le_of_lt high (by decide)
    · split at digit
      · next bounds =>
        have high := UInt32.le_iff_toNat_le.mp bounds.2
        rw [← value, ← value] at high
        exact Nat.lt_of_le_of_lt high (by decide)
      · split at digit
        · next bounds =>
          have high := UInt32.le_iff_toNat_le.mp bounds.2
          rw [← value, ← value] at high
          exact Nat.lt_of_le_of_lt high (by decide)
        · cases digit
  · decide
  · decide

theorem mapM_isSome {α β : Type} {f : α → Option β} {xs : List α} {ys : List β}
    (mapped : xs.mapM f = some ys) : ∀ x ∈ xs, (f x).isSome = true := by
  induction xs generalizing ys with
  | nil => simp
  | cons x xs ih =>
      rw [List.mapM_cons] at mapped
      obtain ⟨y, found, rest⟩ := Option.bind_eq_some_iff.mp mapped
      obtain ⟨zs, later, -⟩ := Option.bind_eq_some_iff.mp rest
      exact List.forall_mem_cons.mpr ⟨by rw [found]; rfl, ih later⟩

theorem readDigits_chars {base n : Nat} {text : List Char} (read : readDigits base text = some n) :
    ∀ c ∈ text, isNumberChar c = true := by
  unfold readDigits at read
  split at read
  · cases read
  · obtain ⟨digits, mapped, -⟩ := Option.bind_eq_some_iff.mp read
    intro c member
    have digit := mapM_isSome mapped c member
    cases value : digitValue c with
    | none => simp [value] at digit
    | some d => simp [isNumberChar, value]

theorem readNumber_chars {n : Nat} {text : List Char} (read : readNumber text = some n) :
    ∀ c ∈ text, isNumberChar c = true := by
  unfold readNumber at read
  split at read
  · exact List.forall_mem_cons.mpr ⟨by decide, List.forall_mem_cons.mpr
      ⟨by decide, readDigits_chars read⟩⟩
  · exact List.forall_mem_cons.mpr ⟨by decide, List.forall_mem_cons.mpr
      ⟨by decide, readDigits_chars read⟩⟩
  · exact List.forall_mem_cons.mpr ⟨by decide, readDigits_chars read⟩
  · exact readDigits_chars read

/-- What is between the separators, and these. -/
theorem mem_split {text : List Char} {c : Char} (separator : Char) (member : c ∈ text) :
    c = separator ∨ ∃ part ∈ text.splitOn separator, c ∈ part := by
  induction text with
  | nil => cases member
  | cons d text ih =>
      obtain ⟨first, rest, split⟩ := List.exists_cons_of_ne_nil (List.splitOn_ne_nil separator text)
      rw [List.splitOn_cons_eq_if_modifyHead]
      rw [split] at ih ⊢
      split
      · next same =>
        rcases List.mem_cons.mp member with rfl | later
        · exact .inl (eq_of_beq same)
        · exact (ih later).imp_right fun ⟨part, place, inside⟩ =>
            ⟨part, List.mem_cons_of_mem _ place, inside⟩
      · rw [List.modifyHead_cons]
        rcases List.mem_cons.mp member with rfl | later
        · exact .inr ⟨_, List.mem_cons_self, List.mem_cons_self⟩
        · refine (ih later).imp_right fun ⟨part, place, inside⟩ => ?_
          rcases List.mem_cons.mp place with rfl | place
          · exact ⟨_, List.mem_cons_self, List.mem_cons_of_mem _ inside⟩
          · exact ⟨part, List.mem_cons_of_mem _ place, inside⟩

theorem inetAton_chars {text : List Char} {bits : BitVec 32} (read : inetAton text = some bits) :
    ∀ c ∈ text, c = '.' ∨ isNumberChar c = true := by
  obtain ⟨parts, mapped, -⟩ := Option.bind_eq_some_iff.mp read
  intro c member
  rcases mem_split '.' member with dot | ⟨part, place, member⟩
  · exact .inl dot
  · obtain ⟨n, number⟩ := Option.isSome_iff_exists.mp (mapM_isSome mapped part place)
    exact .inr (readNumber_chars number c member)

theorem cutColons_colon {text : List Char} {cut : List Char × List Char}
    (found : cutColons text = some cut) : ':' ∈ text := by
  induction text generalizing cut with
  | nil => cases found
  | cons c rest ih =>
      unfold cutColons at found
      split at found
      · cases found
      · next same => simp [same]
      · next same =>
        cases same
        obtain ⟨inner, found, -⟩ := Option.map_eq_some_iff.mp found
        exact List.mem_cons_of_mem _ (ih found)

/-- One group is at most two of eight. -/
theorem readGroups_length_of_single {text : List Char} {groups : List Nat}
    (read : readGroups [text] = some groups) : groups.length ≤ 2 := by
  simp only [readGroups] at read
  split at read
  · obtain ⟨n, _, rfl⟩ := Option.map_eq_some_iff.mp read
    exact Nat.le_refl 2
  · obtain ⟨n, _, rfl⟩ := Option.map_eq_some_iff.mp read
    exact Nat.le_succ 1

theorem inetPton_colon {text : List Char} {bits : BitVec 128} (read : inetPton text = some bits) :
    ':' ∈ text := by
  cases cut : cutColons text with
  | some sides => exact cutColons_colon cut
  | none =>
      by_contra plain
      simp only [inetPton, cut, List.splitOn_eq_singleton plain] at read
      obtain ⟨groups, found, -⟩ := Option.bind_eq_some_iff.mp read
      obtain ⟨one, long⟩ := Option.filter_eq_some_iff.mp found
      have short := readGroups_length_of_single one
      have eight : groups.length = 8 := by simpa using long
      omega

theorem read_chars {text : List Char} {address : IpAddress} (found : read text = some address) :
    (∀ c ∈ text, c.toNat < 128) ∧ (':' ∈ text ∨ ∀ c ∈ text, c = '.' ∨ isNumberChar c = true) := by
  unfold read at found
  split at found
  · next bits aton =>
    have chars := inetAton_chars aton
    refine ⟨fun c member => ?_, .inr chars⟩
    rcases chars c member with rfl | number
    · decide
    · exact isNumberChar_ascii number
  · split at found
    · next ascii =>
      obtain ⟨bits, pton, -⟩ := Option.map_eq_some_iff.mp found
      have inside := List.takeWhile_sublist _ |>.mem (inetPton_colon pton)
      have chars : ∀ c ∈ text, c.toNat < 128 := by
        simpa only [List.all_eq_true, decide_eq_true_eq] using ascii
      exact ⟨chars, .inl inside⟩
    · cases found

/-- A spelling is ASCII text, and one without a colon is made of numbers and dots. -/
theorem Spells.chars {text : List Char} {address : IpAddress} (spells : Spells text address) :
    (∀ c ∈ text, c.toNat < 128) ∧ (':' ∈ text ∨ ∀ c ∈ text, c = '.' ∨ isNumberChar c = true) := by
  rcases spells with found | ⟨front, rfl, found⟩
  · exact read_chars found
  · obtain ⟨ascii, kind⟩ := read_chars found
    refine ⟨?_, ?_⟩
    · intro c member
      rcases List.mem_append.mp member with member | member
      · exact ascii c member
      · rw [List.mem_singleton.mp member]
        decide
    · rcases kind with colon | chars
      · exact .inl (List.mem_append_left _ colon)
      · right
        intro c member
        rcases List.mem_append.mp member with member | member
        · exact chars c member
        · exact .inl (List.mem_singleton.mp member)

/-! ## Networks -/

/-- The address of version 4, also where it is mapped into version 6. -/
def v4? : IpAddress → Option (BitVec 32)
  | .v4 bits => some bits
  | .v6 bits => if bits.toNat / 2 ^ 32 = 0xffff then some (bits.truncate 32) else none

/-- The network 127/8, and ::1. -/
def Loopback (address : IpAddress) : Prop :=
  (∃ bits ∈ address.v4?, bits.toNat / 2 ^ 24 = 127) ∨ address = .v6 1

/-- The networks 169.254/16 and fe80::/10. -/
def LinkLocal (address : IpAddress) : Prop :=
  (∃ bits ∈ address.v4?, bits.toNat / 2 ^ 16 = 169 * 256 + 254) ∨
    ∃ bits, address = .v6 bits ∧ bits.toNat / 2 ^ 118 = 0xfe80 / 2 ^ 6

/-- The networks 10/8, 172.16/12 and 192.168/16. -/
def Private (address : IpAddress) : Prop :=
  ∃ bits ∈ address.v4?, bits.toNat / 2 ^ 24 = 10 ∨ bits.toNat / 2 ^ 20 = 172 * 16 + 1 ∨
    bits.toNat / 2 ^ 16 = 192 * 256 + 168

end IpAddress
