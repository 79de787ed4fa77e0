import UdpAnalyzer.Lib.Text
import UdpAnalyzer.Models

/-! The URLs of a unit or environment file (`channels.py`): joining continued lines,
splitting the words of an assignment, and finding what looks like a URL. -/

namespace UdpAnalyzer

/-! ### Finding URLs -/

def urlSchemes : List Str := ["https".toList, "http".toList, "udp".toList, "rtp".toList]

/-- A character that may follow `://` in a URL. -/
def isUrlChar (c : Char) : Bool := !isSpace c && c ∉ ['"', '\'', '<', '>']

/-- The URL of one scheme a text starts with. -/
def urlWith (scheme text : Str) : Option Str :=
  let head := scheme ++ "://".toList
  let tail := (text.drop head.length).takeWhile isUrlChar
  if head.isPrefixOf text && tail ≠ [] then some (head ++ tail) else none

/-- The match of `URL_RE` at the start of a text. -/
def urlAt (text : Str) : Option Str := urlSchemes.firstM fun scheme => urlWith scheme text

/-- The matches of `URL_RE`, from where `skip` characters are passed over. -/
def findUrlsFrom : ℕ → Str → List Str
  | _, [] => []
  | skip + 1, _ :: rest => findUrlsFrom skip rest
  | 0, c :: rest =>
    match urlAt (c :: rest) with
    | some url => url :: findUrlsFrom (url.length - 1) rest
    | none => findUrlsFrom 0 rest

/-- `URL_RE.findall(text)`. -/
def findUrls (text : Str) : List Str := findUrlsFrom 0 text

/-- `cleanup_url`. -/
def cleanupUrl (url : Str) : Str := url.rdropWhile (· ∈ [')', ',', ';', ']'])

/-! ### Words of an assignment -/

/-- Where `shlex` is: between words, in a word, in quotes, or behind a backslash in a word
or in double quotes. -/
inductive ShlexState where
  | space
  | word
  | quote (q : Char)
  | escape (quoted : Bool)
  deriving DecidableEq, Repr

def isShlexSpace (c : Char) : Bool := c ∈ [' ', '\t', '\r', '\n']

/-- The words of a text. `token` is the word so far, reversed; an empty one counts if it was
quoted. -/
def shlexFrom : ShlexState → Bool → Str → Str → Option (List Str)
  | .space, _, _, [] => some []
  | .word, quoted, token, [] => some (if token = [] ∧ !quoted then [] else [token.reverse])
  | .quote _, _, _, [] => none
  | .escape _, _, _, [] => none
  | .space, quoted, token, c :: rest =>
    if isShlexSpace c then shlexFrom .space quoted token rest
    else if c = '\\' then shlexFrom (.escape false) quoted token rest
    else if c = '\'' ∨ c = '"' then shlexFrom (.quote c) quoted token rest
    else shlexFrom .word quoted [c] rest
  | .quote q, _, token, c :: rest =>
    if c = q then shlexFrom .word true token rest
    else if c = '\\' ∧ q = '"' then shlexFrom (.escape true) true token rest
    else shlexFrom (.quote q) true (c :: token) rest
  | .escape true, quoted, token, c :: rest =>
    if c = '\\' ∨ c = '"' then shlexFrom (.quote '"') quoted (c :: token) rest
    else shlexFrom (.quote '"') quoted (c :: '\\' :: token) rest
  | .escape false, quoted, token, c :: rest => shlexFrom .word quoted (c :: token) rest
  | .word, quoted, token, c :: rest =>
    if isShlexSpace c then
      if token = [] ∧ !quoted then shlexFrom .space quoted token rest
      else (shlexFrom .space false [] rest).map (token.reverse :: ·)
    else if c = '\'' ∨ c = '"' then shlexFrom (.quote c) quoted token rest
    else if c = '\\' then shlexFrom (.escape false) quoted token rest
    else shlexFrom .word quoted (c :: token) rest

/-- `shlex.split(text, comments=False, posix=True)`, or nothing where it raises
`ValueError`. -/
def shlexSplit (text : Str) : Option (List Str) := shlexFrom .space false [] text

/-- `text.split("=", 1)[-1]`. -/
def valueOf (text : Str) : Str := (afterFirst '=' text).getD text

/-- `extract_urls_from_environment`. -/
def extractUrlsFromEnvironment (value : Str) : List Str :=
  ((shlexSplit value).getD (words value)).flatMap fun part => findUrls (valueOf part)

/-! ### Lines -/

/-- `join_systemd_continuations` on lines, the first of which continues `pending`. -/
def joinLines : Str → List Str → List Str
  | pending, [] => if pending = [] then [] else [pending]
  | pending, raw :: rest =>
    let line := rstrip raw
    if line.getLast? = some '\\' then joinLines (pending ++ line.dropLast ++ [' ']) rest
    else (pending ++ line) :: joinLines [] rest

/-- `join_systemd_continuations`. -/
def joinSystemdContinuations (text : Str) : Str :=
  List.intercalate ['\n'] (joinLines [] (splitLines text))

/-- The URLs of one line of a unit file. -/
def urlsOfUnitLine (line : Str) : List Str :=
  let line := strip line
  if line = [] ∨ line.head? = some '#' then []
  else if "Environment=".toList.isPrefixOf line then
    extractUrlsFromEnvironment (line.drop "Environment=".length)
  else findUrls line

/-- `extract_urls_from_unit`. -/
def extractUrlsFromUnit (text : Str) : List Str :=
  ((splitLines (joinSystemdContinuations text)).flatMap urlsOfUnitLine).map cleanupUrl

/-- The URLs of one line of an environment file. -/
def urlsOfEnvLine (line : Str) : List Str :=
  let line := strip line
  if line = [] ∨ line.head? = some '#' then []
  else
    match afterFirst '=' line with
    | none => []
    | some value => findUrls value

/-- The URLs of the text of an environment file (`urls_from_env_file`). -/
def urlsOfEnvText (text : Str) : List Str := ((splitLines text).flatMap urlsOfEnvLine).map cleanupUrl

/-- The values of the `EnvironmentFile=` lines of a joined text, without the dashes in
front. -/
def environmentFileSpecs (joined : Str) : List Str :=
  (splitLines joined).filterMap fun line =>
    let line := strip line
    if "EnvironmentFile=".toList.isPrefixOf line then
      some ((strip (line.drop "EnvironmentFile=".length)).dropWhile (· = '-'))
    else none

example : extractUrlsFromUnit
    "[Service]\nEnvironment=\"URL=https://a.example/x?t=1\"\nExecStart=/bin/app \\\n  udp://h:1),\n".toList =
      ["https://a.example/x?t=1".toList, "udp://h:1".toList] := by
  decide +kernel

end UdpAnalyzer
