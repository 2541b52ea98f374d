import DuraLLM.Lib.IpAddress
import DuraLLM.Lib.RegexWords
import DuraLLM.Security.Defense

/-! # Hosts that are IP addresses

An address has many spellings.  The filter is a pattern for one of them, and for
one spelling of the loopback address of version 6: of the hosts that denote an
address of an internal network, it refuses exactly those.
-/

namespace DuraLLM

open String (ofList)

/-! ## The spellings that are known -/

def secondBytes : List String :=
  ["16", "17", "18", "19", "20", "21", "22", "23", "24", "25", "26", "27", "28", "29", "30", "31"]

/-- The internal networks as the pattern spells them, and how many numbers follow. -/
def spelledNetworks : List (String × Nat) :=
  [("127", 3), ("10", 3), ("169.254", 2), ("192.168", 2)] ++
    secondBytes.map fun second => ("172." ++ second, 2)

/-- Numbers in decimal digits, each behind a dot. -/
def DottedNumbers (n : Nat) (text : List Char) : Prop :=
  ∃ numbers : List (List Char), numbers.length = n ∧
    (∀ number ∈ numbers, number ≠ [] ∧ ∀ c ∈ number, c.isDigit = true) ∧
    text = numbers.flatMap ('.' :: ·)

/-- Four decimal numbers, with those of an internal network in front, or `::1`. -/
def SpelledOut (text : List Char) : Prop :=
  text = "::1".toList ∨
    ∃ network ∈ spelledNetworks, ∃ rest, DottedNumbers network.2 rest ∧
      text = network.1.toList ++ rest

/-- The addresses that no upstream URL may name. -/
def Forbidden (allowLocalhost : Bool) (address : IpAddress) : Prop :=
  if allowLocalhost then address.v4? = some 0xa9fea9fe
  else address.Loopback ∨ address.LinkLocal ∨ address.Private

/-- The texts by which the filter knows them. -/
def Recognized (allowLocalhost : Bool) (text : List Char) : Prop :=
  if allowLocalhost then text = "169.254.169.254".toList else SpelledOut text

/-! ## ASCII characters -/

theorem toLower_ascii {c : Char} (ascii : c.toNat < 128) :
    c.toLower.toNat < 128 ∧ c.toLower.toLower = c.toLower :=
  ascii_cases (P := fun c => c.toLower.toNat < 128 ∧ c.toLower.toLower = c.toLower) (by decide) ascii

theorem toLower_of_not_alpha {c : Char} (ascii : c.toNat < 128) (other : c.toLower.isAlpha = false) :
    c.toLower = c :=
  ascii_cases (P := fun c => c.toLower.isAlpha = false → c.toLower = c) (by decide) ascii other

/-- A text without letters is what it is in lower case. -/
theorem map_toLower_eq {text lowered : List Char} (ascii : ∀ c ∈ text, c.toNat < 128)
    (plain : ∀ c ∈ lowered, c.isAlpha = false) :
    text.map Char.toLower = lowered ↔ text = lowered := by
  constructor
  · rintro rfl
    have each : ∀ c ∈ text, c.toLower = id c := fun c member =>
      toLower_of_not_alpha (ascii c member) (plain _ (List.mem_map_of_mem member))
    rw [List.map_congr_left each, List.map_id]
  · rintro rfl
    have each : ∀ c ∈ text, c.toLower = id c := fun c member =>
      ascii_cases (P := fun c => c.isAlpha = false → c.toLower = c) (by decide) (ascii c member)
        (plain c member)
    rw [List.map_congr_left each, List.map_id]

/-! ## The words of the pattern -/

section Pattern

open Regex

variable (lib : UrlReaders) {w : List Char}

theorem mem_words_dotNumber :
    w ∈ dotNumber.words lib.chars ↔
      ∃ number, w = '.' :: number ∧ number ≠ [] ∧ ∀ c ∈ number, lib.chars.digit c = true := by
  simp only [dotNumber, mem_words_seq, mem_words_literal, digit, mem_words_plus]
  constructor
  · rintro ⟨u, v, rfl, rfl, digits⟩
    exact ⟨v, rfl, digits⟩
  · rintro ⟨number, rfl, digits⟩
    exact ⟨_, number, rfl, rfl, digits⟩

theorem mem_words_dotNumbers (ascii : ∀ c ∈ w, c.toNat < 128) (n : Nat) :
    w ∈ (all (List.replicate n dotNumber)).words lib.chars ↔ DottedNumbers n w := by
  induction n generalizing w with
  | zero => simp [all, DottedNumbers]
  | succ n ih =>
      have rest : all (List.replicate (n + 1) dotNumber) =
          seq dotNumber (all (List.replicate n dotNumber)) := rfl
      rw [rest, mem_words_seq]
      constructor
      · rintro ⟨u, v, rfl, first, later⟩
        obtain ⟨number, rfl, some, digits⟩ := (mem_words_dotNumber lib).mp first
        simp only [List.cons_append, List.forall_mem_cons, List.forall_mem_append] at ascii
        obtain ⟨numbers, rfl, each, rfl⟩ := (ih ascii.2.2).mp later
        refine ⟨number :: numbers, rfl, List.forall_mem_cons.mpr ⟨⟨some, fun c member => ?_⟩, each⟩,
          rfl⟩
        rw [← lib.digit_ascii c (ascii.2.1 c member)]
        exact digits c member
      · rintro ⟨numbers, long, each, rfl⟩
        obtain ⟨number, numbers, rfl⟩ := List.exists_cons_of_length_eq_add_one long
        obtain ⟨⟨some, digits⟩, each⟩ := List.forall_mem_cons.mp each
        simp only [List.flatMap_cons, List.cons_append, List.forall_mem_cons,
          List.forall_mem_append] at ascii
        refine ⟨'.' :: number, _, rfl, (mem_words_dotNumber lib).mpr ⟨number, rfl, some, ?_⟩,
          (ih ascii.2.2).mpr ⟨numbers, Nat.succ.inj long, each, rfl⟩⟩
        intro c member
        rw [lib.digit_ascii c (ascii.2.1 c member)]
        exact digits c member

/-- A network of the pattern and the numbers behind it. -/
theorem mem_words_network (ascii : ∀ c ∈ w, c.toNat < 128) (network : Regex) (n : Nat) :
    w ∈ (seq network (all (List.replicate n dotNumber))).words lib.chars ↔
      ∃ front rest, w = front ++ rest ∧ front ∈ network.words lib.chars ∧ DottedNumbers n rest := by
  rw [mem_words_seq]
  constructor
  · rintro ⟨front, rest, rfl, here, later⟩
    rw [List.forall_mem_append] at ascii
    exact ⟨front, rest, rfl, here, (mem_words_dotNumbers lib ascii.2 n).mp later⟩
  · rintro ⟨front, rest, rfl, here, later⟩
    rw [List.forall_mem_append] at ascii
    exact ⟨front, rest, rfl, here, (mem_words_dotNumbers lib ascii.2 n).mpr later⟩

theorem mem_words_secondByte (ascii : ∀ c ∈ w, c.toNat < 128) :
    w ∈ secondByte.words lib.chars ↔ ofList w ∈ secondBytes := by
  have pair : ∀ (a : String) (accepts : CharTable → Char → Bool),
      w ∈ (all [literal a, .char accepts]).words lib.chars ↔
        ∃ c, accepts lib.chars c = true ∧ w = a.toList ++ [c] := by
    intro a accepts
    simp only [all, List.foldr_cons, List.foldr_nil, mem_words_seq, mem_words_literal,
      mem_words_char, mem_words_empty]
    constructor
    · rintro ⟨u, v, rfl, rfl, x, y, rfl, ⟨c, accepted, rfl⟩, rfl⟩
      exact ⟨c, accepted, by simp⟩
    · rintro ⟨c, accepted, rfl⟩
      exact ⟨_, [c], rfl, rfl, [c], [], by simp, ⟨c, accepted, rfl⟩, rfl⟩
  have known : ∀ second ∈ secondBytes,
      (∃ c ∈ "6789".toList, second.toList = "1".toList ++ [c]) ∨
        (∃ c ∈ "0123456789".toList, second.toList = "2".toList ++ [c]) ∨
          ∃ c ∈ "01".toList, second.toList = "3".toList ++ [c] := by
    have each : ∀ second ∈ secondBytes,
        ("6789".toList.any fun c => second.toList = "1".toList ++ [c]) ∨
          ("0123456789".toList.any fun c => second.toList = "2".toList ++ [c]) ∨
            "01".toList.any fun c => second.toList = "3".toList ++ [c] := by
      decide
    simpa only [List.any_eq_true, decide_eq_true_eq] using each
  simp only [secondByte, mem_words_any, List.exists_mem_cons_iff, List.not_mem_nil,
    false_and, exists_false, or_false, oneOf, digit, pair, decide_eq_true_eq]
  constructor
  · rintro (⟨c, one, rfl⟩ | ⟨c, one, rfl⟩ | ⟨c, one, rfl⟩)
    · have each : "6789".toList.Forall fun c => ofList ("1".toList ++ [c]) ∈ secondBytes := by decide
      exact List.forall_iff_forall_mem.mp each c one
    · have here : c.toNat < 128 := ascii c (by simp)
      rw [lib.digit_ascii c here] at one
      exact ascii_cases (P := fun c => c.isDigit = true → ofList ("2".toList ++ [c]) ∈ secondBytes)
        (by decide) here one
    · have each : "01".toList.Forall fun c => ofList ("3".toList ++ [c]) ∈ secondBytes := by decide
      exact List.forall_iff_forall_mem.mp each c one
  · intro member
    rcases known _ member with ⟨c, one, same⟩ | ⟨c, one, same⟩ | ⟨c, one, same⟩
    · exact .inl ⟨c, one, by simpa using same⟩
    · have digits : "0123456789".toList.Forall fun c => c.isDigit = true ∧ c.toNat < 128 := by decide
      have digit := List.forall_iff_forall_mem.mp digits c one
      refine .inr (.inl ⟨c, ?_, by simpa using same⟩)
      rw [lib.digit_ascii c digit.2]
      exact digit.1
    · exact .inr (.inr ⟨c, one, by simpa using same⟩)

/-- What the pattern says of ASCII texts. -/
theorem mem_words_blockedHosts (ascii : ∀ c ∈ w, c.toNat < 128) :
    w ∈ blockedHostPatterns.words lib.chars ↔
      SpelledOut w ∨ w = "0.0.0.0".toList ∨
        ∃ name ∈ ["localhost", "metadata.google.internal"], w ∈ (folded name).words lib.chars := by
  have network : ∀ (front : String) (n : Nat),
      w ∈ (seq (literal front) (all (List.replicate n dotNumber))).words lib.chars ↔
        ∃ rest, DottedNumbers n rest ∧ w = front.toList ++ rest := by
    intro front n
    rw [mem_words_network lib ascii]
    simp only [mem_words_literal]
    constructor
    · rintro ⟨_, rest, split, rfl, numbers⟩
      exact ⟨rest, numbers, split⟩
    · rintro ⟨rest, numbers, split⟩
      exact ⟨_, rest, split, rfl, numbers⟩
  have second : w ∈ (all [literal "172.", secondByte, dotNumber, dotNumber]).words lib.chars ↔
      ∃ second ∈ secondBytes, ∃ rest, DottedNumbers 2 rest ∧ w = ("172." ++ second).toList ++ rest := by
    have parts : all [literal "172.", secondByte, dotNumber, dotNumber] =
        seq (literal "172.") (seq secondByte (all (List.replicate 2 dotNumber))) := rfl
    rw [parts, mem_words_seq]
    simp only [mem_words_literal]
    constructor
    · rintro ⟨_, tail, rfl, rfl, numbers⟩
      rw [List.forall_mem_append] at ascii
      obtain ⟨byte, rest, rfl, here, numbers⟩ := (mem_words_network lib ascii.2 _ 2).mp numbers
      rw [List.forall_mem_append] at ascii
      refine ⟨ofList byte, (mem_words_secondByte lib ascii.2.1).mp here, rest, numbers, ?_⟩
      simp
    · rintro ⟨byte, member, rest, numbers, rfl⟩
      rw [String.toList_append, List.append_assoc] at ascii ⊢
      simp only [List.forall_mem_append] at ascii
      refine ⟨_, _, rfl, rfl, (mem_words_network lib ?_ _ 2).mpr
        ⟨byte.toList, rest, rfl, (mem_words_secondByte lib ascii.2.1).mpr ?_, numbers⟩⟩
      · exact List.forall_mem_append.mpr ascii.2
      · simpa using member
  have two : ∀ front, all [literal front, dotNumber, dotNumber] =
      seq (literal front) (all (List.replicate 2 dotNumber)) := fun _ => rfl
  have three : ∀ front, all [literal front, dotNumber, dotNumber, dotNumber] =
      seq (literal front) (all (List.replicate 3 dotNumber)) := fun _ => rfl
  have spelled : SpelledOut w ↔ w = "::1".toList ∨
      (∃ rest, DottedNumbers 3 rest ∧ w = "127".toList ++ rest) ∨
      (∃ rest, DottedNumbers 3 rest ∧ w = "10".toList ++ rest) ∨
      (∃ rest, DottedNumbers 2 rest ∧ w = "169.254".toList ++ rest) ∨
      (∃ rest, DottedNumbers 2 rest ∧ w = "192.168".toList ++ rest) ∨
      ∃ second ∈ secondBytes, ∃ rest, DottedNumbers 2 rest ∧ w = ("172." ++ second).toList ++ rest := by
    simp only [SpelledOut, spelledNetworks, List.mem_append, List.mem_map, or_and_right, exists_or,
      List.exists_mem_cons_iff, List.not_mem_nil, false_and, exists_false, or_false, or_assoc,
      exists_exists_and_eq_and]
  rw [blockedHostPatterns, mem_words_any, spelled]
  simp only [List.exists_mem_cons_iff, List.not_mem_nil, false_and, exists_false, or_false, two,
    three, network, second, mem_words_literal]
  simp only [or_comm, or_left_comm, or_assoc]

theorem edgeFree_all {parts : List Regex} (free : ∀ r ∈ parts, r.EdgeFree) : (all parts).EdgeFree := by
  induction parts with
  | nil => trivial
  | cons r parts ih =>
      obtain ⟨first, rest⟩ := List.forall_mem_cons.mp free
      exact ⟨first, ih rest⟩

theorem edgeFree_chars (text : String) (accepts : Char → CharTable → Char → Bool) :
    (all (text.toList.map fun c => .char (accepts c))).EdgeFree := by
  refine edgeFree_all fun r member => ?_
  obtain ⟨c, _, rfl⟩ := List.mem_map.mp member
  trivial

theorem edgeFree_blockedHosts : blockedHostPatterns.EdgeFree := by
  have number : dotNumber.EdgeFree := ⟨edgeFree_chars _ _, trivial, trivial⟩
  have byte : secondByte.EdgeFree :=
    ⟨⟨⟨edgeFree_chars _ _, trivial, trivial⟩, edgeFree_chars _ _, trivial, trivial⟩,
      edgeFree_chars _ _, trivial, trivial⟩
  have numbers : ∀ (front : String) (n : Nat),
      (seq (literal front) (all (List.replicate n dotNumber))).EdgeFree := fun front n =>
    ⟨edgeFree_chars _ _, edgeFree_all fun r member => (List.eq_of_mem_replicate member) ▸ number⟩
  exact ⟨⟨⟨⟨⟨⟨⟨⟨numbers _ 2, numbers _ 3⟩, edgeFree_chars _ _⟩, edgeFree_chars _ _⟩,
    edgeFree_chars _ _⟩, edgeFree_chars _ _⟩, numbers _ 3⟩,
    edgeFree_chars _ _, byte, number, number, trivial⟩, numbers _ 2⟩

end Pattern

/-! ## The host of a URL -/

section Host

variable {lib : UrlReaders}

theorem mem_splitScheme {url : List Char} {c : Char} (member : c ∈ (splitScheme url).2) : c ∈ url := by
  unfold splitScheme at member
  split at member
  · exact member
  · next rest same =>
    dsimp only at member
    split at member
    · exact (List.dropWhile_sublist _).mem (same ▸ List.mem_cons_of_mem _ member)
    · exact member

theorem mem_splitNetloc {url : List Char} {c : Char} (member : c ∈ splitNetloc url) : c ∈ url := by
  unfold splitNetloc at member
  split at member
  · exact List.mem_cons_of_mem _ (List.mem_cons_of_mem _ ((List.takeWhile_sublist _).mem member))
  · cases member

theorem mem_hostText {netloc : List Char} {c : Char} (member : c ∈ hostText netloc) : c ∈ netloc := by
  have info : ∀ c ∈ (netloc.reverse.takeWhile (· ≠ '@')).reverse, c ∈ netloc := fun c inside =>
    List.mem_reverse.mp ((List.takeWhile_sublist _).mem (List.mem_reverse.mp inside))
  unfold hostText at member
  dsimp only at member
  split at member
  · next bracketed same =>
    have inside := (List.takeWhile_sublist _).mem member
    exact info c ((List.dropWhile_sublist _).mem (same ▸ List.mem_cons_of_mem _ inside))
  · exact info c ((List.takeWhile_sublist _).mem member)

/-- No line break gets into a host. -/
theorem newline_not_mem_hostText {url : String} {parsed : ParsedUrl}
    (parses : urlparse lib url = .ok parsed) : '\n' ∉ hostText parsed.netloc.toList := by
  intro member
  unfold urlparse at parses
  dsimp only at parses
  split at parses
  · cases parses
  · cases parses
    have inside := mem_splitScheme (mem_splitNetloc (by simpa using mem_hostText member))
    simp [cleanUrl] at inside

/-- The host that is checked is the host of the URL in lower case. -/
theorem toList_lower_hostname {parsed : ParsedUrl} (some : hostText parsed.netloc.toList ≠ [])
    (ascii : ∀ c ∈ hostText parsed.netloc.toList, c.toNat < 128) :
    (lib.casing.lower ((parsed.hostname lib).getD "")).toList =
      (hostText parsed.netloc.toList).map Char.toLower := by
  have toList_toLower : ∀ s : String, s.toLower.toList = s.toList.map Char.toLower := fun _ =>
    String.toList_map ..
  have front : ∀ c ∈ (hostText parsed.netloc.toList).takeWhile (· ≠ '%'), c.toNat < 128 :=
    fun c member => ascii c ((List.takeWhile_sublist _).mem member)
  have back : ∀ c ∈ (hostText parsed.netloc.toList).dropWhile (· ≠ '%'), c.toNat < 128 :=
    fun c member => ascii c ((List.dropWhile_sublist _).mem member)
  have lowered : lib.casing.lower (ofList ((hostText parsed.netloc.toList).takeWhile (· ≠ '%'))) =
      ofList (((hostText parsed.netloc.toList).takeWhile (· ≠ '%')).map Char.toLower) := by
    rw [lib.casing.plain _ (by simpa using front)]
    apply String.toList_injective
    rw [toList_toLower, String.toList_ofList, String.toList_ofList]
  have again : ∀ c ∈ (hostText parsed.netloc.toList).takeWhile (· ≠ '%'),
      (Char.toLower ∘ Char.toLower) c = c.toLower := fun c member => (toLower_ascii (front c member)).2
  simp only [ParsedUrl.hostname, if_neg some, Option.getD_some, lowered]
  rw [lib.casing.plain]
  · rw [toList_toLower, String.toList_append, String.toList_ofList, String.toList_ofList,
      List.map_append, List.map_map, List.map_congr_left again, ← List.map_append,
      List.takeWhile_append_dropWhile]
  · intro c member
    rw [String.toList_append, String.toList_ofList, String.toList_ofList] at member
    rcases List.mem_append.mp member with member | member
    · obtain ⟨d, inside, rfl⟩ := List.mem_map.mp member
      exact (toLower_ascii (front d inside)).1
    · exact back c member

end Host

/-! ## The filter -/

section Filter

variable {lib : UrlReaders} {text : List Char} {address : IpAddress}

theorem forall₂_mem {R : Char → Char → Prop} {cs ds : List Char} (related : List.Forall₂ R cs ds) :
    (∀ c ∈ cs, ∃ d ∈ ds, R c d) ∧ ∀ d ∈ ds, ∃ c ∈ cs, R c d := by
  induction related with
  | nil => simp
  | cons here later ih =>
      refine ⟨List.forall_mem_cons.mpr ⟨⟨_, List.mem_cons_self, here⟩, fun c member => ?_⟩,
        List.forall_mem_cons.mpr ⟨⟨_, List.mem_cons_self, here⟩, fun d member => ?_⟩⟩
      · obtain ⟨d, inside, same⟩ := ih.1 c member
        exact ⟨d, List.mem_cons_of_mem _ inside, same⟩
      · obtain ⟨c, inside, same⟩ := ih.2 d member
        exact ⟨c, List.mem_cons_of_mem _ inside, same⟩

/-- No address is spelled like one of the names, in whatever letter case. -/
theorem spells_ne_name (spells : IpAddress.Spells text address) {name : String}
    (known : name ∈ ["localhost", "metadata.google.internal"]) :
    ¬List.Forall₂ (fun c d => lib.chars.lower d = lib.chars.lower c) name.toList
      (text.map Char.toLower) := by
  intro related
  obtain ⟨ascii, kind⟩ := spells.chars
  obtain ⟨each, back⟩ := forall₂_mem related
  have letters : ∀ name ∈ ["localhost", "metadata.google.internal"], 'l' ∈ name.toList ∧
      ∀ c ∈ name.toList, c.toNat < 128 ∧ ':'.toLower ≠ c.toLower := by
    simp only [← List.forall_iff_forall_mem]
    decide
  obtain ⟨ell, others⟩ := letters name known
  rcases kind with colon | chars
  · obtain ⟨c, inside, same⟩ := back _ (List.mem_map_of_mem colon)
    rw [lib.lower_ascii _ (others c inside).1, lib.lower_ascii _ (by decide)] at same
    exact (others c inside).2 same
  · obtain ⟨d, inside, same⟩ := each 'l' ell
    obtain ⟨c, member, rfl⟩ := List.mem_map.mp inside
    have here := ascii c member
    rw [lib.lower_ascii _ (toLower_ascii here).1, lib.lower_ascii _ (by decide)] at same
    have other := ascii_cases
      (P := fun c => (c = '.' ∨ IpAddress.isNumberChar c = true) → c.toLower.toLower ≠ 'l'.toLower)
      (by decide) here
    exact other (chars c member) same

/-- The unspecified address is not forbidden. -/
theorem not_spells_zero (allowLocalhost : Bool) (forbidden : Forbidden allowLocalhost address) :
    ¬IpAddress.Spells "0.0.0.0".toList address := by
  have zero : IpAddress.read "0.0.0.0".toList = some (.v4 0) := by decide +kernel
  rintro (same | ⟨front, split, -⟩)
  · rw [zero] at same
    cases same
    revert forbidden
    cases allowLocalhost <;>
      simp [Forbidden, IpAddress.Loopback, IpAddress.LinkLocal, IpAddress.Private, IpAddress.v4?]
  · have last := congrArg List.getLast? split
    simp at last

theorem spells_ne_nil (spells : IpAddress.Spells text address) : text ≠ [] := by
  rintro rfl
  rcases spells with found | ⟨front, split, -⟩
  · have nothing : IpAddress.read [] = none := rfl
    rw [nothing] at found
    cases found
  · simp at split

theorem spelledOut_chars (spelled : SpelledOut text) : ∀ c ∈ text, c.isAlpha = false := by
  have plain : ∀ network ∈ spelledNetworks, ∀ c ∈ network.1.toList, c.isAlpha = false := by
    simp only [← List.forall_iff_forall_mem]
    decide
  rcases spelled with rfl | ⟨network, known, rest, ⟨numbers, -, each, rfl⟩, rfl⟩
  · exact List.forall_iff_forall_mem.mp (by decide)
  · refine List.forall_mem_append.mpr ⟨plain network known, fun c member => ?_⟩
    obtain ⟨number, place, inside⟩ := List.mem_flatMap.mp member
    rcases List.mem_cons.mp inside with rfl | inside
    · rfl
    · have digit := (each number place).2 c inside
      have here : c.toNat < 128 := by
        have bounds : c.val.toNat ≤ '9'.val.toNat := by
          simp only [Char.isDigit, Bool.and_eq_true, decide_eq_true_eq] at digit
          exact UInt32.le_iff_toNat_le.mp digit.2
        exact Nat.lt_of_le_of_lt bounds (by decide)
      exact ascii_cases (P := fun c => c.isDigit = true → c.isAlpha = false) (by decide) here digit

/-- What the filter does with a host that spells a forbidden address. -/
theorem fillsText_spelled_iff (spells : IpAddress.Spells text address) (allowLocalhost : Bool)
    (forbidden : Forbidden allowLocalhost address) (unbroken : '\n' ∉ text) :
    Regex.fillsText lib.chars blockedHostPatterns (ofList (text.map Char.toLower)) = true ↔
      SpelledOut text := by
  have ascii : ∀ c ∈ text, c.toNat < 128 := spells.chars.1
  have ascii' : ∀ c ∈ text.map Char.toLower, c.toNat < 128 := by
    intro c member
    obtain ⟨d, inside, rfl⟩ := List.mem_map.mp member
    exact (toLower_ascii (ascii d inside)).1
  have unbroken' : '\n' ∉ text.map Char.toLower := by
    intro member
    obtain ⟨c, inside, same⟩ := List.mem_map.mp member
    have newline := ascii_cases (P := fun c => c.toLower = '\n' → c = '\n') (by decide)
      (ascii c inside) same
    exact unbroken (newline ▸ inside)
  rw [Regex.fillsText_iff edgeFree_blockedHosts, String.toList_ofList,
    mem_words_blockedHosts lib ascii']
  constructor
  · rintro ((spelled | zero | ⟨name, known, folded⟩) | ⟨w, -, split⟩)
    · rwa [(map_toLower_eq ascii (spelledOut_chars spelled)).mp rfl] 
    · rw [map_toLower_eq ascii (List.forall_iff_forall_mem.mp (by decide))] at zero
      exact absurd (zero ▸ spells) (not_spells_zero allowLocalhost forbidden)
    · exact absurd ((Regex.mem_words_folded name).mp folded) (spells_ne_name spells known)
    · exact absurd (split ▸ List.mem_append_right w List.mem_cons_self) unbroken'
  · intro spelled
    left
    left
    rwa [(map_toLower_eq ascii (spelledOut_chars spelled)).mpr rfl]

/-- Of the hosts that spell a forbidden address, a URL with an allowed scheme is refused
    for exactly those that are spelled as the filter knows them. -/
theorem literal_host_refused_iff {url : String} {allowedSchemes : List String}
    {allowLocalhost : Bool} {parsed : ParsedUrl} (parses : urlparse lib url = .ok parsed)
    (named : parsed.scheme ≠ "") (allowed : lib.casing.lower parsed.scheme ∈ allowedSchemes)
    (spells : IpAddress.Spells (hostText parsed.netloc.toList) address)
    (forbidden : Forbidden allowLocalhost address) :
    (∃ e, validateUpstreamUrl lib url allowedSchemes allowLocalhost = .error e) ↔
      Recognized allowLocalhost (hostText parsed.netloc.toList) := by
  have ascii := spells.chars.1
  have host : lib.casing.lower ((parsed.hostname lib).getD "") =
      ofList ((hostText parsed.netloc.toList).map Char.toLower) := by
    rw [← toList_lower_hostname (spells_ne_nil spells) ascii, String.ofList_toList]
  have some : ofList ((hostText parsed.netloc.toList).map Char.toLower) ≠ "" := by
    intro same
    have empty := congrArg String.toList same
    exact spells_ne_nil spells (by simpa using empty)
  have unnamed : ofList ((hostText parsed.netloc.toList).map Char.toLower) ≠
      "metadata.google.internal" := by
    intro same
    have lowered : (hostText parsed.netloc.toList).map Char.toLower =
        "metadata.google.internal".toList := by
      rw [← same, String.toList_ofList]
    have other : ¬List.Forall₂ (fun c d => lib.chars.lower d = lib.chars.lower c)
        "metadata.google.internal".toList ((hostText parsed.netloc.toList).map Char.toLower) :=
      spells_ne_name spells (List.mem_cons_of_mem _ List.mem_cons_self)
    rw [lowered] at other
    exact other (List.forall₂_same.mpr fun _ _ => rfl)
  have metadata : ofList ((hostText parsed.netloc.toList).map Char.toLower) = "169.254.169.254" ↔
      hostText parsed.netloc.toList = "169.254.169.254".toList := by
    rw [← map_toLower_eq ascii (List.forall_iff_forall_mem.mp (by decide)), ← String.toList_inj, String.toList_ofList]
  have numbers : ∀ number ∈ ["169".toList, "254".toList],
      number ≠ [] ∧ ∀ c ∈ number, c.isDigit = true := by
    simp only [← List.forall_iff_forall_mem]
    decide
  have inside : SpelledOut "169.254.169.254".toList :=
    .inr ⟨("169.254", 2), by decide, _, ⟨["169".toList, "254".toList], rfl, numbers, rfl⟩, rfl⟩
  simp only [validateUpstreamUrl, parses, validateParsed, host]
  rw [if_neg (by simp [named, allowed]), if_neg some]
  cases allowLocalhost with
  | true =>
      simp only [Bool.not_true, Bool.false_and, Bool.false_eq_true, if_false, Recognized, if_true,
        unnamed, or_false, metadata]
      split
      · next same => exact iff_of_true ⟨_, rfl⟩ same
      · next other => exact iff_of_false (fun ⟨_, raised⟩ => by cases raised) other
  | false =>
      have filled : Regex.fillsText lib.chars blockedHostPatterns
          (ofList ((hostText parsed.netloc.toList).map Char.toLower)) = true ↔
            SpelledOut (hostText parsed.netloc.toList) :=
        fillsText_spelled_iff spells false forbidden (newline_not_mem_hostText parses)
      simp only [Bool.not_false, Bool.true_and, Recognized, Bool.false_eq_true, if_false, unnamed,
        or_false, metadata]
      split
      · next matched => exact iff_of_true ⟨_, rfl⟩ (filled.mp matched)
      · next unmatched =>
        have other : ¬SpelledOut (hostText parsed.netloc.toList) := fun spelled =>
          unmatched (filled.mpr spelled)
        split
        · next same => exact absurd (same ▸ inside) other
        · exact iff_of_false (fun ⟨_, raised⟩ => by cases raised) other

end Filter

/-! ### Spellings of two addresses -/

/-- ASCII text, and network locations without fault. -/
def UrlReaders.ascii : UrlReaders where
  casing := .ascii
  chars := .ascii
  digit_ascii _ _ := rfl
  lower_ascii _ _ := rfl
  rejects _ := none

theorem loopback_forbidden : Forbidden false (.v4 0x7f000001) := .inl (.inl ⟨_, rfl, by decide⟩)

theorem literal_host_refused_dotted :
    ∃ parsed, urlparse .ascii "http://127.0.0.1:11434/v1" = .ok parsed ∧
      ((∃ e, validateUpstreamUrl .ascii "http://127.0.0.1:11434/v1" ["https", "http"] false =
          .error e) ↔
        Recognized false (hostText parsed.netloc.toList)) := by
  have parses : urlparse .ascii "http://127.0.0.1:11434/v1" = .ok ⟨"http", "127.0.0.1:11434"⟩ := by
    decide +kernel
  have spells : IpAddress.Spells (hostText "127.0.0.1:11434".toList) (.v4 0x7f000001) :=
    .inl (by decide +kernel)
  exact ⟨_, parses, literal_host_refused_iff parses (by decide) (by decide +kernel) spells
    loopback_forbidden⟩

/-- The loopback address in two parts passes, and so does the address of the metadata
    service with a dot behind it, where local upstreams are allowed. -/
theorem short_form_passes :
    (IpAddress.Spells (hostText "127.1".toList) (.v4 0x7f000001) ∧
        Forbidden false (.v4 0x7f000001) ∧
        urlparse .ascii "http://127.1/v1" = .ok ⟨"http", "127.1"⟩ ∧
        validateUpstreamUrl .ascii "http://127.1/v1" = .ok true) ∧
      IpAddress.Spells (hostText "169.254.169.254.".toList) (.v4 0xa9fea9fe) ∧
        Forbidden true (.v4 0xa9fea9fe) ∧
        urlparse .ascii "http://169.254.169.254./latest" = .ok ⟨"http", "169.254.169.254."⟩ ∧
        validateUpstreamUrl .ascii "http://169.254.169.254./latest" ["https", "http", "mock"] true =
          .ok true :=
  ⟨⟨.inl (by decide +kernel), loopback_forbidden, by decide +kernel, by decide +kernel⟩,
    .inr ⟨"169.254.169.254".toList, by decide, by decide +kernel⟩, rfl, by decide +kernel,
    by decide +kernel⟩

end DuraLLM
