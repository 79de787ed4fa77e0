import Mathlib.Data.Int.Notation
import UdpAnalyzer.Lib.Text

/-! Splitting a URL into its components, as `urllib.parse.urlparse` does, with the checks
it makes on the network location. What it needs of the Unicode tables is a parameter. -/

namespace UdpAnalyzer

/-- Normalization and lower case of texts. -/
structure Unicode where
  nfkc : List Char → List Char
  lower : List Char → List Char

/-- The text before the first `c`, and the text after it. -/
def before (c : Char) (text : List Char) : List Char := text.takeWhile (· ≠ c)

def after (c : Char) (text : List Char) : List Char := (text.dropWhile (· ≠ c)).drop 1

def isAsciiDigit (c : Char) : Bool := '0' ≤ c && c ≤ '9'

def isHexDigit (c : Char) : Bool :=
  isAsciiDigit c || ('a' ≤ c && c ≤ 'f') || ('A' ≤ c && c ≤ 'F')

def isAsciiAlpha (c : Char) : Bool := ('a' ≤ c && c ≤ 'z') || ('A' ≤ c && c ≤ 'Z')

/-- The number a text of decimal digits stands for. -/
def decimalValue (digits : List Char) : ℕ :=
  digits.foldl (fun n c => 10 * n + (c.toNat - '0'.toNat)) 0

/-! ### Hosts in brackets -/

def isOctet (text : List Char) : Bool :=
  text ≠ [] && text.all isAsciiDigit && text.length ≤ 3 && (text = ['0'] || text.head? ≠ some '0') &&
    decimalValue text ≤ 255

/-- `ipaddress.IPv4Address(text)` succeeds. -/
def isIPv4 (text : List Char) : Bool :=
  '/' ∉ text && (text.splitOn '.').length = 4 && (text.splitOn '.').all isOctet

def isHextet (text : List Char) : Bool :=
  text ≠ [] && text.all isHexDigit && text.length ≤ 4

/-- Parts on one side of `::`; a single empty part stands at the end of the address. -/
def isHextetRun (parts : List (List Char)) : Bool := parts = [[]] || parts.all isHextet

/-- Parts between the colons of an IPv6 address, an IPv4 suffix counted as two. -/
def isIPv6Parts (parts : List (List Char)) : Bool :=
  let inner := parts.tail.dropLast
  let count (side : List (List Char)) := if side = [[]] then 0 else side.length
  if 9 < parts.length then false
  else
    match inner.count [] with
    | 0 => parts.length = 8 && parts.all isHextet
    | 1 =>
      let skip := inner.idxOf [] + 1
      isHextetRun (parts.take skip) && isHextetRun (parts.drop (skip + 1)) &&
        count (parts.take skip) + count (parts.drop (skip + 1)) ≤ 7
    | _ => false

/-- `ipaddress.IPv6Address(text)` succeeds. -/
def isIPv6 (text : List Char) : Bool :=
  let address := before '%' text
  let scope := after '%' text
  let parts := address.splitOn ':'
  let last := parts.getLast?.getD []
  '/' ∉ text && ('%' ∉ text || (scope ≠ [] && '%' ∉ scope)) && 3 ≤ parts.length &&
    (if '.' ∈ last then isIPv4 last && isIPv6Parts (parts.dropLast ++ [['0'], ['0']])
    else isIPv6Parts parts)

/-- `_check_bracketed_host`. -/
def isBracketedHost (hostname : List Char) : Bool :=
  match hostname with
  | 'v' :: rest =>
    let version := rest.takeWhile isHexDigit
    match rest.drop version.length with
    | '.' :: address => version ≠ [] && address ≠ []
    | _ => false
  | _ => isIPv6 hostname

/-! ### The network location -/

/-- What follows the last `@`. -/
def hostAndPort (netloc : List Char) : List Char := (afterLast '@' netloc).getD netloc

/-- `_hostinfo`: the host and the port as they are written. -/
def hostInfo (netloc : List Char) : List Char × List Char :=
  let hostinfo := hostAndPort netloc
  if '[' ∈ hostinfo then
    let bracketed := after '[' hostinfo
    (before ']' bracketed, after ':' (after ']' bracketed))
  else (before ':' hostinfo, after ':' hostinfo)

/-- The brackets of a network location: a pair of them, around the host only. -/
def bracketsOk (netloc : List Char) : Bool :=
  if '[' ∈ netloc && ']' ∈ netloc then
    let hostinfo := hostAndPort netloc
    let rest := after ']' (after '[' hostinfo)
    if '[' ∈ hostinfo then
      before '[' hostinfo = [] && (rest = [] || rest.head? = some ':') &&
        isBracketedHost (before ']' (after '[' hostinfo))
    else isBracketedHost (before ':' hostinfo)
  else '[' ∉ netloc && ']' ∉ netloc

/-- `_checknetloc`: no separator appears when the location is normalized. -/
def netlocOk (u : Unicode) (netloc : List Char) : Bool :=
  let kept := netloc.filter fun c => c ∉ ['@', ':', '#', '?']
  netloc.all (·.toNat < 128) || u.nfkc kept = kept ||
    (u.nfkc kept).all fun c => c ∉ ['/', '?', '#', '@', ':']

/-! ### Splitting -/

def isSchemeChar (c : Char) : Bool := isAsciiAlpha c || isAsciiDigit c || c ∈ ['+', '-', '.']

/-- The scheme, in lower case, and what follows its colon. -/
def splitScheme (url : List Char) : List Char × List Char :=
  let head := before ':' url
  if ':' ∈ url && (head.head?.any isAsciiAlpha) && head.all isSchemeChar then
    (head.map Char.toLower, after ':' url)
  else ([], url)

structure ParseResult where
  scheme : List Char
  netloc : List Char
  path : List Char
  params : List Char
  query : List Char
  fragment : List Char
  deriving DecidableEq, Repr

/-- The network location after two slashes, and what follows it. -/
def splitNetloc : List Char → List Char × List Char
  | '/' :: '/' :: rest => rest.span fun c => c ∉ ['/', '?', '#']
  | url => ([], url)

def usesParams : List (List Char) :=
  ["".toList, "ftp".toList, "hdl".toList, "prospero".toList, "http".toList, "imap".toList,
    "https".toList, "shttp".toList, "rtsp".toList, "rtsps".toList, "rtspu".toList, "sip".toList,
    "sips".toList, "mms".toList, "sftp".toList, "tel".toList]

/-- `_splitparams`: what follows the first semicolon of the last segment. -/
def splitParams (path : List Char) : List Char × List Char :=
  let last := (afterLast '/' path).getD path
  if ';' ∈ last then (path.take (path.length - last.length) ++ before ';' last, after ';' last)
  else (path, [])

/-- `urlparse(url)`, or nothing where it raises `ValueError`. -/
def urlparse (u : Unicode) (url : List Char) : Option ParseResult :=
  let cleaned := (url.dropWhile (·.toNat ≤ 32)).filter fun c => c ∉ ['\t', '\r', '\n']
  let (scheme, rest) := splitScheme cleaned
  let (netloc, rest) := splitNetloc rest
  if bracketsOk netloc && netlocOk u netloc then
    let fragment := after '#' rest
    let rest := before '#' rest
    let query := after '?' rest
    let path := before '?' rest
    let (path, params) :=
      if scheme ∈ usesParams && ';' ∈ path then splitParams path else (path, [])
    some ⟨scheme, netloc, path, params, query, fragment⟩
  else none

namespace ParseResult

/-- `parsed.hostname`; the zone of an address keeps its case. -/
def hostname (u : Unicode) (parsed : ParseResult) : Option (List Char) :=
  let host := (hostInfo parsed.netloc).1
  if host = [] then none
  else
    some (u.lower (before '%' host) ++ if '%' ∈ host then '%' :: after '%' host else [])

/-- The port as it is written. -/
def portText (parsed : ParseResult) : List Char := (hostInfo parsed.netloc).2

/-- A text `parsed.port` accepts: decimal digits, few enough for `int`, of a port. -/
def isPort (text : List Char) : Bool :=
  text.all isAsciiDigit && text.length ≤ 4300 && decimalValue text ≤ 65535

/-- `parsed.port`, or nothing where it raises `ValueError`. -/
def port (parsed : ParseResult) : Option (Option ℤ) :=
  if parsed.portText = [] then some none
  else if isPort parsed.portText then some (some (decimalValue parsed.portText))
  else none

end ParseResult

end UdpAnalyzer
