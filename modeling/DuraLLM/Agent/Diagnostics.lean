import DuraLLM.Agent.Context
import DuraLLM.Lib.JsonLayout
import DuraLLM.Lib.Lines
import DuraLLM.Lib.Regex
import DuraLLM.Streaming.Parser

/-! # Summaries of tool outputs

What is kept of a compiler output, a test trace or any other text that is too
long: the members of interest of a JSON object, or the lines that look like
diagnostics between a head and a tail, or both ends.  A summary has a header of
its own, and one that is cut says so, so it can be longer than the text.
-/

namespace DuraLLM

open Text

/-- What the text and number types decide: the kinds of characters, and how a
    number that was read is written. -/
structure Libraries where
  chars : CharTable
  number : List Char → Option (List Char)

/-- ASCII characters, and natural numbers as they stand. -/
def Libraries.ascii : Libraries where
  chars := .ascii
  number text := if text.all Char.isDigit then some text else none

/-! ## What looks like a diagnostic -/

section Patterns

open Regex

/-- What paths are made of. -/
def pathChar : Regex := .char fun table c => table.word c || c = '.' || c = '-' || c = '/'

def wordChar : Regex := .char (·.word)

/-- `[^"]` -/
def unquoted : Regex := .char fun _ c => c ≠ '\x22'

def failureWord : Regex :=
  .seq (any (folded "error") [folded "fatal",
    .seq (folded "fail") (maybe (.either (folded "ed") (folded "ure"))),
    folded "exception", folded "critical", folded "traceback", folded "panic"]) .wordEdge

def exitCode : Regex :=
  all [.either (.seq (folded "exit") (maybe (.seq (plus space) (folded "code"))))
      (folded "returncode"),
    .star space, maybe (oneOf ":="), .star space, plus digit]

def errorName : Regex :=
  any (folded "AssertionError") [folded "TypeError", folded "ValueError", folded "KeyError",
    folded "IndexError", folded "AttributeError", folded "SyntaxError", folded "NameError"]

def failureMark : Regex :=
  any (all [.wordEdge, folded "FAILED", .wordEdge]) [all [.wordEdge, folded "FAIL", .wordEdge],
    all [.wordEdge, folded "=== FAILURES ===", .wordEdge],
    all [.wordEdge, folded "=== ERRORS ===", .wordEdge]]

/-- A place in a file with an error or a warning. -/
def errorSite : Regex :=
  all [plus pathChar, oneOf ".", plus wordChar, oneOf ":", plus digit,
    maybe (.seq (oneOf ":") (plus digit)), oneOf ":", .star space, maybe (folded "fatal "),
    .either (folded "error") (folded "warning")]

def diagnosticPatterns : Regex :=
  any failureWord [exitCode, errorName, failureMark,
    all [folded "error[E", plus digit, literal "]"], .seq (folded "error TS") (plus digit),
    errorSite,
    all [folded "File \"", plus unquoted, folded "\", line ", plus digit],
    folded "diff --git",
    all [literal "@@ -", plus (oneOf "0123456789,"), literal " +", plus (oneOf "0123456789,"),
      literal " @@"]]

/-- `^[\.FEsxX]+\s+\[\s*\d+%\]` -/
def progressBar : Regex :=
  all [plus (oneOf ".FEsxX"), plus space, oneOf "[", .star space, plus digit, literal "%]"]

def dots : Regex := plus (oneOf ".")

end Patterns

/-! ## The summary -/

def structuredKeys : List String :=
  ["status", "exit_code", "returncode", "error", "errors", "message", "path", "file", "id", "count",
    "stderr", "stdout"]

def structuredMembers : JsonTree → List (String × JsonTree)
  | .obj members => structuredKeys.filterMap fun key => (members.lookup key).map (key, ·)
  | _ => []

def structuredSummary (extracted : List (String × JsonTree)) : String :=
  "[Structured Tool Output Summary (by DuraLLM)]:\n" ++
    String.ofList ((JsonTree.obj extracted).layout 0) ++
    "\n... (remaining payload truncated to preserve context budget)"

def cutTo (maxChars : Nat) (summary : String) : String :=
  if summary.length ≤ maxChars then summary else clip maxChars summary ++ "\n... [truncated]"

def historyHeader : String :=
  "[Historical Tool Output compacted by DuraLLM to fit target budget]\n"

def truncatedMark : String := "\n... [truncated] ...\n"

/-- Both ends of a text. -/
def halves (half : Nat) (text : String) : String :=
  historyHeader ++ clip half text ++ truncatedMark ++ clipEnd half text

section Summaries

variable (libraries : Libraries)

def isDiagnostic (cleaned : String) : Bool :=
  cleaned ≠ "" && !progressBar.startsText libraries.chars cleaned &&
    !dots.isText libraries.chars cleaned && diagnosticPatterns.inText libraries.chars cleaned

def diagnosticLines (lines : List String) : List String :=
  lines.foldl (fun found line =>
    let cleaned := strip line
    if isDiagnostic libraries cleaned ∧ cleaned ∉ found then found ++ [cleaned] else found) []

/-- The lines that are not blank, stripped. -/
def visibleLines (lines : List String) : List String := (lines.map strip).filter (· ≠ "")

def logSummary (lines : List String) : String :=
  let found := diagnosticLines libraries lines
  joinLines (["[Historical Tool Output compacted by DuraLLM to fit target budget]",
      "--- HEAD (" ++ toString lines.length ++ " total lines) ---",
      joinLines (visibleLines (lines.take 3))] ++
    (if found = [] then []
      else ["--- EXTRACTED DIAGNOSTICS & ERRORS (" ++ toString found.length ++ " findings) ---",
        joinLines (found.take (max 2 (min found.length 8)))]) ++
    ["--- TAIL ---", joinLines (visibleLines (lines.rtake 3))])

/-- The summary before it is cut; `none` for a text of few lines. -/
def summaryOf (text : String) : Option String :=
  match ((JsonTree.decode libraries.number text).map structuredMembers).getD [] with
  | [] =>
      if (splitlines text).length ≤ 4 then none else some (logSummary libraries (splitlines text))
  | extracted => some (structuredSummary extracted)

def halfOf (maxChars : Nat) : Nat := max 50 ((maxChars - 60) / 2)

def extractDiagnosticSummary (maxChars : Nat) (text : String) : String :=
  if text.length ≤ maxChars then text
  else
    match summaryOf libraries text with
    | some summary => cutTo maxChars summary
    | none => halves (halfOf maxChars) text

/-! ## Its length -/

theorem length_cutTo (maxChars : Nat) (summary : String) :
    (cutTo maxChars summary).length =
      if summary.length ≤ maxChars then summary.length else maxChars + 16 := by
  unfold cutTo
  split
  · rfl
  · have marker : ("\n... [truncated]" : String).length = 16 := by decide +kernel
    rw [String.length_append, length_clip, marker]
    omega

theorem length_halves (half : Nat) (text : String) :
    (halves half text).length = 88 + 2 * min half text.length := by
  have header : historyHeader.length = 67 := by decide +kernel
  have marker : truncatedMark.length = 21 := by decide +kernel
  simp only [halves, String.length_append, length_clip, length_clipEnd, header, marker]
  omega

/-- The text is short, or the summary fits or saves as much as its last line
    adds, or both ends save as much as the lines around them add. -/
def Shortens (maxChars : Nat) (text : String) : Prop :=
  text.length ≤ maxChars ∨
    match summaryOf libraries text with
    | some summary => summary.length ≤ maxChars ∨ maxChars + 16 ≤ text.length
    | none => 88 + 2 * halfOf maxChars ≤ text.length

theorem extract_length_le_iff (maxChars : Nat) (text : String) :
    (extractDiagnosticSummary libraries maxChars text).length ≤ text.length ↔
      Shortens libraries maxChars text := by
  unfold extractDiagnosticSummary Shortens
  split
  · next short => simp [short]
  · next long =>
    cases summaryOf libraries text with
    | some summary =>
        simp only [length_cutTo]
        split <;> omega
    | none =>
        simp only [length_halves]
        omega

/-- No summary is much longer than it may be. -/
theorem extract_length_le (maxChars : Nat) (text : String) :
    (extractDiagnosticSummary libraries maxChars text).length ≤ max (maxChars + 28) 188 := by
  unfold extractDiagnosticSummary
  split
  · omega
  · cases summaryOf libraries text with
    | some summary =>
        simp only [length_cutTo]
        split <;> omega
    | none =>
        simp only [length_halves, halfOf]
        omega

end Summaries

end DuraLLM
