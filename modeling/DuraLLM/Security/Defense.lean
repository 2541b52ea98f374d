import DuraLLM.Lib.Regex
import DuraLLM.Lib.Text

/-! # Upstream URLs

`validate_upstream_url` refuses URLs of other schemes than the allowed ones, and
those that name a host of an internal network.  The host is what `urlparse` takes
out of the network location; that `urlsplit` rejects some network locations, over
their brackets or over characters that turn into delimiters, is left to the
library.
-/

namespace DuraLLM

open String (ofList)

/-- What the text and URL libraries decide. The table of the patterns has the ASCII
    characters as usual. -/
structure UrlReaders where
  casing : Casing
  chars : CharTable
  digit_ascii : ∀ c, c.toNat < 128 → chars.digit c = c.isDigit
  lower_ascii : ∀ c, c.toNat < 128 → chars.lower c = c.toLower
  /-- The error over a network location, if there is one. -/
  rejects : String → Option String

/-- A `CircuitBreakerGatewayError` -/
structure GatewayError where
  message : String
  deriving DecidableEq

/-! ## `urlparse` -/

structure ParsedUrl where
  scheme : String
  netloc : String
  deriving DecidableEq

/-- Control characters and spaces in front, and tabs and line breaks anywhere, are
    left out. -/
def cleanUrl (url : String) : List Char :=
  (url.toList.dropWhile fun c => c.toNat ≤ 0x20).filter fun c => c ∉ ['\t', '\r', '\n']

def isSchemeChar (c : Char) : Bool := c.isAlphanum || c ∈ ['+', '-', '.']

/-- The text in front of the first colon, where it can be a scheme. -/
def splitScheme (url : List Char) : String × List Char :=
  match url.dropWhile (· ≠ ':') with
  | [] => ("", url)
  | _ :: rest =>
      let scheme := url.takeWhile (· ≠ ':')
      if scheme.head?.any Char.isAlpha && scheme.all isSchemeChar then
        (ofList (scheme.map Char.toLower), rest)
      else ("", url)

/-- `_splitnetloc` -/
def splitNetloc : List Char → List Char
  | '/' :: '/' :: rest => rest.takeWhile fun c => c ∉ ['/', '?', '#']
  | _ => []

def urlparse (lib : UrlReaders) (url : String) : Except String ParsedUrl :=
  let (scheme, rest) := splitScheme (cleanUrl url)
  let netloc := ofList (splitNetloc rest)
  match lib.rejects netloc with
  | some error => .error error
  | none => .ok { scheme, netloc }

/-- The host in a network location, without user and port. -/
def hostText (netloc : List Char) : List Char :=
  let hostinfo := (netloc.reverse.takeWhile (· ≠ '@')).reverse
  match hostinfo.dropWhile (· ≠ '[') with
  | _ :: bracketed => bracketed.takeWhile (· ≠ ']')
  | [] => hostinfo.takeWhile (· ≠ ':')

/-- The host in lower case, but for its zone. -/
def ParsedUrl.hostname (lib : UrlReaders) (parsed : ParsedUrl) : Option String :=
  let host := hostText parsed.netloc.toList
  if host = [] then none
  else some (lib.casing.lower (ofList (host.takeWhile (· ≠ '%'))) ++
    ofList (host.dropWhile (· ≠ '%')))

/-! ## `validate_upstream_url` -/

section Patterns

open Regex

/-- `\.\d+` -/
def dotNumber : Regex := .seq (literal ".") (plus digit)

/-- `1[6-9]|2\d|3[01]` -/
def secondByte : Regex :=
  any (all [literal "1", oneOf "6789"]) [all [literal "2", digit], all [literal "3", oneOf "01"]]

/-- `BLOCKED_HOST_PATTERNS`, between `^` and `$`. -/
def blockedHostPatterns : Regex :=
  any (all [literal "169.254", dotNumber, dotNumber])
    [all [literal "127", dotNumber, dotNumber, dotNumber],
      folded "localhost",
      literal "0.0.0.0",
      literal "::1",
      folded "metadata.google.internal",
      all [literal "10", dotNumber, dotNumber, dotNumber],
      all [literal "172.", secondByte, dotNumber, dotNumber],
      all [literal "192.168", dotNumber, dotNumber]]

end Patterns

def validateParsed (lib : UrlReaders) (parsed : ParsedUrl) (allowedSchemes : List String)
    (allowLocalhost : Bool) : Except GatewayError Bool :=
  if parsed.scheme = "" ∨ lib.casing.lower parsed.scheme ∉ allowedSchemes then
    .error ⟨"Security violation: Upstream URL scheme '" ++ parsed.scheme ++ "' is disallowed."⟩
  else
    let hostname := lib.casing.lower ((parsed.hostname lib).getD "")
    if hostname = "" then
      .error ⟨"Security violation: Upstream URL lacks a valid hostname."⟩
    else if !allowLocalhost && Regex.fillsText lib.chars blockedHostPatterns hostname then
      .error ⟨"Security violation: Upstream URL host '" ++ hostname ++
        "' is blocked (SSRF defense)."⟩
    else if hostname = "169.254.169.254" ∨ hostname = "metadata.google.internal" then
      .error ⟨"Security violation: Access to cloud metadata service is prohibited."⟩
    else .ok true

def validateUpstreamUrl (lib : UrlReaders) (url : String)
    (allowedSchemes : List String := ["https", "http", "mock"]) (allowLocalhost : Bool := false) :
    Except GatewayError Bool :=
  match urlparse lib url with
  | .error e => .error ⟨"Security violation: Malformed upstream URL '" ++ url ++ "': " ++ e⟩
  | .ok parsed => validateParsed lib parsed allowedSchemes allowLocalhost

end DuraLLM
