import UdpAnalyzer.Catalog.UnitText
import UdpAnalyzer.Channel.Catalog
import UdpAnalyzer.Lib.Files
import UdpAnalyzer.Lib.Url

/-! The targets of unit files (`channels.py`): a unit is a channel if it and its
environment files have exactly one URL, and a template unit has a channel for every
environment file its pattern finds. -/

namespace UdpAnalyzer

/-! ### Paths in a unit file -/

def percentI : Str := ['%', 'i']

def percentH : Str := ['%', 'h']

/-- `expand_home_specifier`. -/
def expandHomeSpecifier (fs : FileSystem) (spec : Str) (unitPath : PosixPath) : Str :=
  if percentH <:+: spec then
    let text := unitPath.parent.toText
    let home :=
      match splitAtFirst ".config/systemd/user".toList text with
      | some (c :: head, _) => (c :: head).dropLast
      | _ => fs.home.toText
    replaceAll percentH home spec
  else spec

/-- `environment_file_paths`. -/
def environmentFilePaths (fs : FileSystem) (joined : Str) (unitPath : PosixPath) :
    List PosixPath :=
  ((environmentFileSpecs joined).filter fun spec => spec ≠ [] ∧ ¬ percentI <:+: spec).map
    fun spec => .parse (expandHomeSpecifier fs spec unitPath)

/-- `path.read_text`, when nothing is made of a failing `open`. -/
def readTextOr {α : Type} (fs : FileSystem) (path : PosixPath) (missing : α)
    (f : Str → Except PyExc α) : Except PyExc α :=
  match fs.readText path with
  | .error .os => .ok missing
  | .error .unicode => .error .unicodeDecodeError
  | .error .nul => .error .valueError
  | .ok text => f text

/-- `urls_from_env_file`. -/
def urlsFromEnvFile (fs : FileSystem) (path : PosixPath) : Except PyExc (List Str) :=
  readTextOr fs path [] fun text => .ok (urlsOfEnvText text)

/-! ### One URL -/

def serviceSuffix : Str := ".service".toList

def templateSuffix : Str := "@.service".toList

/-- `text.removesuffix(suffix)`. -/
def removeSuffix (suffix text : Str) : Str :=
  if suffix.isSuffixOf text then text.take (text.length - suffix.length) else text

/-- `channel_target_from_url`. -/
def channelTargetFromUrl (u : Unicode) (unit url : Str) : Except PyExc ChannelTarget :=
  match urlparse u url with
  | none => .error .valueError
  | some parsed =>
    if parsed.scheme ∉ urlSchemes then
      .error (.runtimeError (String.ofList unit ++ " URL must use http, https, udp or rtp: " ++
        String.ofList url))
    else
      match parsed.hostname u with
      | none | some [] =>
        .error (.runtimeError (String.ofList unit ++ " URL has no host: " ++ String.ofList url))
      | some hostname =>
        let target (port : ℤ) : ChannelTarget :=
          { channel := removeSuffix serviceSuffix unit
            unit
            url
            scheme := parsed.scheme
            host := u.lower hostname
            port
            path := (if parsed.path = [] then ['/'] else parsed.path) ++
              (if parsed.query = [] then [] else '?' :: parsed.query) }
        match parsed.port with
        | none => .error .valueError
        | some (some port) => .ok (target port)
        | some none =>
          if parsed.scheme = "udp".toList ∨ parsed.scheme = "rtp".toList then
            .error (.runtimeError (String.ofList unit ++ " UDP/RTP URL needs explicit port: " ++
              String.ofList url))
          else .ok (target (if parsed.scheme = "https".toList then 443 else 80))

/-! ### Template units -/

/-- `prefix@instance.service`. -/
def instanceUnit (head instanceName : Str) : Str := head ++ '@' :: instanceName ++ serviceSuffix

/-- The part of a file name the `%i` of a pattern stands for. -/
def instanceOf (fhead ftail name : Str) : Str :=
  if fhead.isPrefixOf name && ftail.isSuffixOf name then
    (name.take (name.length - ftail.length)).drop fhead.length
  else []

/-- The target of one instance, if its environment file has exactly one URL. -/
def instanceTarget (u : Unicode) (fs : FileSystem) (head fhead ftail : Str) (envPath : PosixPath) :
    Except PyExc (List ChannelTarget) :=
  let instanceName := instanceOf fhead ftail envPath.name
  if instanceName = [] then .ok []
  else do
    let urls ← urlsFromEnvFile fs envPath
    match sortedSet urls with
    | [url] => do
      let target ← channelTargetFromUrl u (instanceUnit head instanceName) url
      return [{ target with channel := instanceName }]
    | _ => .ok []

/-- What stands before and after the `%i` of a pattern: it has to be in the file name. -/
def patternParts (specPath : PosixPath) : Option (Str × Str) :=
  if percentI <:+: specPath.parent.toText then none else splitAtFirst percentI specPath.name

/-- The targets one `EnvironmentFile=` pattern finds. -/
def patternTargets (u : Unicode) (fs : FileSystem) (templatePath : PosixPath) (head spec : Str) :
    Except PyExc (List ChannelTarget) :=
  if percentI <:+: spec then
    let specPath := PosixPath.parse (expandHomeSpecifier fs spec templatePath)
    match patternParts specPath with
    | none => .ok []
    | some (fhead, ftail) =>
      match fs.glob specPath.parent (fhead ++ '*' :: ftail) with
      | .error .pattern => .error .valueError
      | .error .os => .error .osError
      | .ok envPaths => do
        let targets ← (sortedPaths envPaths).mapM (instanceTarget u fs head fhead ftail)
        return targets.flatten
  else .ok []

/-- `template_instance_targets`. -/
def templateInstanceTargets (u : Unicode) (fs : FileSystem) (templatePath : PosixPath)
    (joined : Str) : Except PyExc (List ChannelTarget) := do
  let head := removeSuffix templateSuffix templatePath.name
  let targets ← (environmentFileSpecs joined).mapM (patternTargets u fs templatePath head)
  return targets.flatten

/-! ### Unit files -/

/-- The targets of a plain unit: one, if there is exactly one URL. -/
def plainUnitTargets (u : Unicode) (fs : FileSystem) (path : PosixPath) (text : Str) :
    Except PyExc (List ChannelTarget) := do
  let envUrls ← (environmentFilePaths fs (joinSystemdContinuations text) path).mapM
    (urlsFromEnvFile fs)
  match sortedSet (extractUrlsFromUnit text ++ envUrls.flatten) with
  | [url] => do
    let target ← channelTargetFromUrl u path.name url
    return [target]
  | _ => .ok []

/-- What one path adds to the targets. -/
def unitTargets (u : Unicode) (fs : FileSystem) (path : PosixPath) :
    Except PyExc (List ChannelTarget) :=
  readTextOr fs path [] fun text =>
    if templateSuffix.isSuffixOf path.name then
      templateInstanceTargets u fs path (joinSystemdContinuations text)
    else plainUnitTargets u fs path text

/-- `load_channel_targets`. -/
def loadChannelTargets (u : Unicode) (fs : FileSystem) (paths : List PosixPath) :
    Except PyExc (List ChannelTarget) :=
  paths.foldlM (fun targets path => return targets ++ (← unitTargets u fs path)) []

end UdpAnalyzer
