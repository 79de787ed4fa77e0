import UdpAnalyzer.Catalog.Registration
import UdpAnalyzer.Channel.Verdict

/-! Where the unit files of a catalog come from (`load_channel_catalog` of `cli.py`): files
and directories named on the command line, then the default directories. The sources are
listed from the highest precedence to the lowest, and the catalog keeps the last target of
a unit; the paths of the default directories are sorted before. -/

namespace UdpAnalyzer

/-! ### The paths of a catalog -/

/-- The options of `run-channels` that choose the unit files. -/
structure CatalogArgs where
  unitFile : List Str := []
  unitDir : List Str := []
  noDefaultUnitDirs : Bool := false
  noResolveDns : Bool := false
  deriving DecidableEq, Repr

/-- The unit files of a directory, in the order it lists them; none if it cannot be listed. -/
def serviceChildren (fs : FileSystem) (directory : PosixPath) : List PosixPath :=
  (((fs.names directory).getD []).filter serviceSuffix.isSuffixOf).map directory.child

/-- `DEFAULT_USER_UNIT_DIRS`. -/
def defaultUserUnitDirs (fs : FileSystem) : List PosixPath :=
  [((fs.home.child ".config".toList).child "systemd".toList).child "user".toList,
    .parse "/etc/systemd/user".toList, .parse "/usr/lib/systemd/user".toList]

/-- `default_user_unit_paths`. -/
def defaultUserUnitPaths (fs : FileSystem) (unitDirs : List PosixPath) : List PosixPath :=
  sortedPaths (unitDirs.flatMap (serviceChildren fs))

def unitFilePaths (args : CatalogArgs) : List PosixPath := args.unitFile.map PosixPath.parse

def unitDirPaths (fs : FileSystem) (args : CatalogArgs) : List PosixPath :=
  args.unitDir.flatMap fun dir => sortedPaths (serviceChildren fs (.parse dir))

def defaultPaths (fs : FileSystem) (args : CatalogArgs) : List PosixPath :=
  if args.noDefaultUnitDirs then [] else defaultUserUnitPaths fs (defaultUserUnitDirs fs)

/-- `paths` of `load_channel_catalog`. -/
def catalogPaths (fs : FileSystem) (args : CatalogArgs) : List PosixPath :=
  unitFilePaths args ++ unitDirPaths fs args ++ defaultPaths fs args

/-- `load_channel_catalog`. -/
def loadChannelCatalog (u : Unicode) (fs : FileSystem) (resolver : Resolver) (args : CatalogArgs) :
    Except PyExc ChannelCatalog := do
  let targets ← loadChannelTargets u fs (catalogPaths fs args)
  if args.noResolveDns then return .ofTargets targets
  else (ChannelCatalog.ofTargets targets).resolve resolver

/-! ### The target of a name -/

/-- The last path of a list with a file name. -/
def lastNamed (name : Str) (paths : List PosixPath) : Option PosixPath :=
  paths.reverse.find? fun path => path.name = name

/-- The URLs of a unit file and its environment files. -/
def unitUrls (fs : FileSystem) (path : PosixPath) : List Str :=
  match fs.readText path with
  | .error _ => []
  | .ok text => extractUrlsFromUnit text ++
      (environmentFilePaths fs (joinSystemdContinuations text) path).flatMap (envFileUrls fs)

/-- A plain unit with exactly one URL has exactly one target. -/
theorem unitTargets_onlyUrl {u : Unicode} {fs : FileSystem} {path : PosixPath}
    {targets : List ChannelTarget} (h : unitTargets u fs path = .ok targets)
    (hplain : ¬ templateSuffix <:+ path.name) {url : Str} (hurl : OnlyUrl (unitUrls fs path) url) :
    ∃ target, target.unit = path.name ∧ target.url = url ∧ targets = [target] := by
  have htemplate : ¬ templateSuffix.isSuffixOf path.name = true :=
    fun hsuffix => hplain (List.isSuffixOf_iff_suffix.mp hsuffix)
  have hsome : unitUrls fs path ≠ [] := List.ne_nil_of_mem ((hurl url).mpr rfl)
  unfold unitUrls at hurl hsome
  unfold unitTargets readTextOr at h
  cases hread : fs.readText path with
  | error e =>
    rw [hread] at hsome
    exact absurd rfl hsome
  | ok text =>
    rw [hread] at h hurl
    dsimp only at h hurl
    rw [if_neg htemplate] at h
    obtain ⟨envUrls, henv, h⟩ := bind_eq_ok h
    obtain ⟨-, rfl⟩ := mapM_urlsFromEnvFile.mp henv
    rw [← List.flatMap_def] at h
    exact (onlyUrl_eq_ok h).2 url hurl

theorem lastNamed_append (name : Str) (paths paths' : List PosixPath) :
    lastNamed name (paths ++ paths') = (lastNamed name paths').or (lastNamed name paths) := by
  unfold lastNamed
  rw [List.reverse_append, List.find?_append]

/-- The target the catalog keeps of a unit is the one of the last file of that name. -/
theorem configuredTarget_url {u : Unicode} {fs : FileSystem} {paths : List PosixPath}
    {parts : List (List ChannelTarget)} (hparts : paths.mapM (unitTargets u fs) = .ok parts)
    {name : Str} (hplain : ¬ templateSuffix <:+ name) {url : PosixPath → Str}
    (hurl : ∀ path ∈ paths, path.name = name → OnlyUrl (unitUrls fs path) (url path))
    (hinstance : ∀ path ∈ paths, ∀ head, path.name = head ++ templateSuffix →
      ∀ instanceName, name ≠ instanceUnit head instanceName) :
    (configuredTarget parts.flatten name).map ChannelTarget.url = (lastNamed name paths).map url := by
  induction paths generalizing parts with
  | nil =>
    cases hparts
    rfl
  | cons path rest ih =>
    obtain ⟨part, parts', hpart, hrest, rfl⟩ := mapM_cons_eq_ok.mp hparts
    have htail := ih hrest (fun p hp => hurl p (List.mem_cons_of_mem _ hp))
      (fun p hp => hinstance p (List.mem_cons_of_mem _ hp))
    have hhead : (part.reverse.find? fun target => target.unit = name).map ChannelTarget.url =
        (lastNamed name [path]).map url := by
      by_cases hname : path.name = name
      · obtain ⟨target, hunit, htargetUrl, rfl⟩ := unitTargets_onlyUrl hpart (hname ▸ hplain)
          (hurl path List.mem_cons_self hname)
        rw [hname] at hunit
        simp [lastNamed, hunit, hname, htargetUrl]
      · have hnone : part.reverse.find? (fun target => target.unit = name) = none := by
          apply List.find?_eq_none.mpr
          intro target htarget hunit
          have hunit : target.unit = name := by simpa using hunit
          rcases unitTargets_unit hpart (List.mem_reverse.mp htarget) with hown | ⟨head, hhead, hinst⟩
          · exact hname (hown.symm.trans hunit)
          · exact hinstance path List.mem_cons_self head hhead _ (hunit.symm.trans hinst)
        rw [hnone]
        simp [lastNamed, hname]
    have hsplit : lastNamed name (path :: rest) = (lastNamed name rest).or (lastNamed name [path]) :=
      lastNamed_append name [path] rest
    have htargets : configuredTarget ((part :: parts').flatten) name =
        (configuredTarget parts'.flatten name).or
          (part.reverse.find? fun target => target.unit = name) := by
      unfold configuredTarget
      rw [List.flatten_cons, List.reverse_append, List.find?_append]
    rw [hsplit, htargets, Option.map_or, Option.map_or, htail, hhead]

/-- Resolving leaves the URL of a unit as it was loaded. -/
theorem loadChannelCatalog_url {u : Unicode} {fs : FileSystem} {resolver : Resolver}
    {args : CatalogArgs} {catalog : ChannelCatalog}
    (h : loadChannelCatalog u fs resolver args = .ok catalog) :
    ∃ parts, (catalogPaths fs args).mapM (unitTargets u fs) = .ok parts ∧ ∀ name,
      (catalog.byUnit.get? name).map ChannelTarget.url =
        (configuredTarget parts.flatten name).map ChannelTarget.url := by
  obtain ⟨targets, htargets, h⟩ := bind_eq_ok h
  obtain ⟨parts, hparts, rfl⟩ := loadChannelTargets_eq_ok.mp htargets
  refine ⟨parts, hparts, fun name => ?_⟩
  split_ifs at h
  · cases h
    rw [ChannelCatalog.byUnit_ofTargets]
    rfl
  · have hunit := byUnit_resolve h name
    cases hconfigured : configuredTarget parts.flatten name with
    | none =>
      rw [hconfigured] at hunit
      rw [hunit]
    | some target =>
      rw [hconfigured] at hunit
      obtain ⟨addresses, -, hget⟩ := hunit
      rw [hget]
      rfl

/-! ### Precedence -/

/-- The places of unit files, the highest precedence first. -/
def unitPlaces (fs : FileSystem) (args : CatalogArgs) : List (List PosixPath) :=
  [unitFilePaths args, unitDirPaths fs args] ++
    if args.noDefaultUnitDirs then [] else (defaultUserUnitDirs fs).map (serviceChildren fs)

/-- A file of the highest place that has one of the name. -/
def Preferred (fs : FileSystem) (args : CatalogArgs) (name : Str) (path : PosixPath) : Prop :=
  path.name = name ∧ ∃ place, path ∈ place ∧
    (unitPlaces fs args).find? (fun place => place.any (·.name = name)) = some place

/-- The file of the name that is loaded last: the greatest path in the default directories,
else the last one of the directories of the command line, else the last one named there. -/
def lastLoaded (fs : FileSystem) (args : CatalogArgs) (name : Str) : Option PosixPath :=
  (lastNamed name (defaultPaths fs args)).or
    ((lastNamed name (unitDirPaths fs args)).or (lastNamed name (unitFilePaths args)))

/-- Of the files in the default directories, the one loaded last is the greatest path. -/
theorem lastNamed_defaultPaths {fs : FileSystem} {args : CatalogArgs} {name : Str}
    {path : PosixPath} (h : lastNamed name (defaultPaths fs args) = some path) :
    ∀ other ∈ defaultPaths fs args, other.name = name → other.key ≤ path.key := by
  have hsorted : (defaultPaths fs args).Pairwise fun p q => p.key ≤ q.key := by
    unfold defaultPaths
    split_ifs
    · exact List.Pairwise.nil
    · exact sortedPaths_pairwise _
  intro other hother hname
  obtain ⟨-, after, before, hsplit, hafter⟩ := List.find?_eq_some_iff_append.mp h
  have hpaths : defaultPaths fs args = before.reverse ++ path :: after.reverse := by
    rw [← List.reverse_reverse (defaultPaths fs args), hsplit]
    simp
  rw [hpaths] at hsorted hother
  rcases List.mem_append.mp hother with hmem | hmem
  · exact (List.pairwise_append.mp hsorted).2.2 other hmem path List.mem_cons_self
  · rcases List.mem_cons.mp hmem with rfl | hmem
    · exact le_refl _
    · have hnot := hafter other (List.mem_reverse.mp hmem)
      simp [hname] at hnot

/-- The catalog answers with the file of the highest precedence. -/
def UsesPreferred (fs : FileSystem) (args : CatalogArgs) (catalog : ChannelCatalog)
    (url : PosixPath → Str) (name : Str) : Prop :=
  ∃ path, Preferred fs args name path ∧ ∀ dstIp dstPort,
    ((catalog.matchFlow name dstIp dstPort).target.map ChannelTarget.url) = some (url path)

/-- For every set of unit files and every name of a plain unit each of whose files has
exactly one URL: the catalog uses the file of the highest precedence exactly when the file
loaded last has the URL of such a file. -/
theorem uses_preferred_iff (u : Unicode) (fs : FileSystem) (resolver : Resolver)
    (args : CatalogArgs) (catalog : ChannelCatalog)
    (hload : loadChannelCatalog u fs resolver args = .ok catalog) (name : Str)
    (hplain : ¬ templateSuffix <:+ name) (url : PosixPath → Str)
    (hurl : ∀ path ∈ catalogPaths fs args, path.name = name → OnlyUrl (unitUrls fs path) (url path))
    (hinstance : ∀ path ∈ catalogPaths fs args, ∀ head, path.name = head ++ templateSuffix →
      ∀ instanceName, name ≠ instanceUnit head instanceName) :
    UsesPreferred fs args catalog url name ↔
      ∃ last ∈ lastLoaded fs args name, ∃ path, Preferred fs args name path ∧ url last = url path := by
  obtain ⟨parts, hparts, hcatalog⟩ := loadChannelCatalog_url hload
  have hloaded : (catalog.byUnit.get? name).map ChannelTarget.url =
      (lastLoaded fs args name).map url := by
    have hlast : lastNamed name (catalogPaths fs args) = lastLoaded fs args name := by
      unfold catalogPaths lastLoaded
      rw [lastNamed_append, lastNamed_append]
    rw [hcatalog, configuredTarget_url hparts hplain hurl hinstance, hlast]
  unfold UsesPreferred
  simp only [ChannelCatalog.matchFlow_target, hloaded, Option.map_eq_some_iff]
  constructor
  · rintro ⟨path, hpath, hall⟩
    obtain ⟨last, hlast, hsame⟩ := hall [] 0
    exact ⟨last, hlast, path, hpath, hsame⟩
  · rintro ⟨last, hlast, path, hpath, hsame⟩
    exact ⟨path, hpath, fun _ _ => ⟨last, hlast, hsame⟩⟩

/-! A user's unit that overrides the vendor's, and one that is the vendor's alone. -/

def homeUnit (name : String) : PosixPath :=
  .parse ("/home/radio/.config/systemd/user/".toList ++ name.toList)

def vendorUnit (name : String) : PosixPath :=
  .parse ("/usr/lib/systemd/user/".toList ++ name.toList)

def overriddenFiles : FileSystem where
  home := .parse "/home/radio".toList
  bytes path :=
    if path = homeUnit "radio.service" then
      some (asciiBytes "[Service]\nEnvironment=URL=http://own.example/a\n".toList)
    else if path = vendorUnit "radio.service" then
      some (asciiBytes "[Service]\nEnvironment=URL=http://vendor.example/a\n".toList)
    else if path = vendorUnit "news.service" then
      some (asciiBytes "[Service]\nEnvironment=URL=http://news.example/n\n".toList)
    else none
  names path :=
    if path = .parse "/home/radio/.config/systemd/user".toList then some ["radio.service".toList]
    else if path = .parse "/usr/lib/systemd/user".toList then
      some ["news.service".toList, "radio.service".toList]
    else none

/-- The only URL of each of the units. -/
def overriddenUrl (path : PosixPath) : Str :=
  if path = homeUnit "radio.service" then "http://own.example/a".toList
  else if path = vendorUnit "radio.service" then "http://vendor.example/a".toList
  else "http://news.example/n".toList

def noDnsArgs : CatalogArgs := { noResolveDns := true }

def overriddenTarget (channel url host path : String) : ChannelTarget where
  channel := channel.toList
  unit := channel.toList ++ serviceSuffix
  url := url.toList
  scheme := "http".toList
  host := host.toList
  port := 80
  path := path.toList

def overriddenTargets : List ChannelTarget :=
  [overriddenTarget "radio" "http://own.example/a" "own.example" "/a",
    overriddenTarget "news" "http://news.example/n" "news.example" "/n",
    overriddenTarget "radio" "http://vendor.example/a" "vendor.example" "/a"]

theorem overridden_paths : catalogPaths overriddenFiles noDnsArgs =
    [homeUnit "radio.service", vendorUnit "news.service", vendorUnit "radio.service"] := by
  decide +kernel

/-- Each file has exactly one URL. -/
theorem overridden_urls : ∀ path ∈ catalogPaths overriddenFiles noDnsArgs,
    unitUrls overriddenFiles path = [overriddenUrl path] := by
  rw [overridden_paths]
  decide +kernel

theorem overridden_load :
    loadChannelCatalog .ascii overriddenFiles unknownHost noDnsArgs =
      .ok (.ofTargets overriddenTargets) := by
  have htargets : loadChannelTargets .ascii overriddenFiles (catalogPaths overriddenFiles noDnsArgs) =
      .ok overriddenTargets := by
    rw [overridden_paths]
    decide +kernel
  unfold loadChannelCatalog
  rw [htargets]
  rfl

theorem uses_preferred_iff_news :
    UsesPreferred overriddenFiles noDnsArgs (.ofTargets overriddenTargets) overriddenUrl
      "news.service".toList := by
  have hurl : ∀ path ∈ catalogPaths overriddenFiles noDnsArgs, path.name = "news.service".toList →
      OnlyUrl (unitUrls overriddenFiles path) (overriddenUrl path) := by
    intro path hpath _ other
    rw [overridden_urls path hpath, List.mem_singleton]
  have hinstance : ∀ path ∈ catalogPaths overriddenFiles noDnsArgs, ∀ head,
      path.name = head ++ templateSuffix →
        ∀ instanceName, "news.service".toList ≠ instanceUnit head instanceName := by
    have hplain : ∀ path ∈ catalogPaths overriddenFiles noDnsArgs,
        templateSuffix.isSuffixOf path.name = false := by
      rw [overridden_paths]
      decide +kernel
    intro path hpath head hhead
    have hsuffix := hplain path hpath
    rw [hhead, List.isSuffixOf_iff_suffix.mpr (List.suffix_append _ _)] at hsuffix
    cases hsuffix
  have hpreferred : Preferred overriddenFiles noDnsArgs "news.service".toList
      (vendorUnit "news.service") := by
    refine ⟨by decide +kernel, [vendorUnit "news.service", vendorUnit "radio.service"], ?_, ?_⟩
    · exact List.mem_cons_self
    · decide +kernel
  have hplain : ¬ templateSuffix <:+ "news.service".toList := by decide +kernel
  have hlast : vendorUnit "news.service" ∈
      lastLoaded overriddenFiles noDnsArgs "news.service".toList := by decide +kernel
  apply (uses_preferred_iff .ascii overriddenFiles unknownHost noDnsArgs _ overridden_load _ hplain
    overriddenUrl hurl hinstance).mpr
  exact ⟨vendorUnit "news.service", hlast, vendorUnit "news.service", hpreferred, rfl⟩

/-- The vendor's file is used, and not the user's own one that overrides it. -/
theorem vendor_unit_overrides_own :
    (∀ path ∈ catalogPaths overriddenFiles noDnsArgs,
      unitUrls overriddenFiles path = [overriddenUrl path]) ∧
    loadChannelCatalog .ascii overriddenFiles unknownHost noDnsArgs =
      .ok (.ofTargets overriddenTargets) ∧
    ¬ UsesPreferred overriddenFiles noDnsArgs (.ofTargets overriddenTargets) overriddenUrl
      "radio.service".toList := by
  refine ⟨overridden_urls, overridden_load, ?_⟩
  rintro ⟨path, ⟨hname, place, hmem, hplace⟩, hurl⟩
  have hfirst : (unitPlaces overriddenFiles noDnsArgs).find?
      (fun place => place.any (·.name = "radio.service".toList)) = some [homeUnit "radio.service"] := by
    decide +kernel
  rw [hfirst] at hplace
  cases hplace
  rcases List.mem_singleton.mp hmem with rfl
  have hvendor := hurl [] 80
  revert hvendor
  decide +kernel

end UdpAnalyzer
