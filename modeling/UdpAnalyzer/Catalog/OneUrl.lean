import UdpAnalyzer.Catalog.Sources
import UdpAnalyzer.Catalog.UnitNames

/-! One unit, one channel, one URL. A plain unit has a target if it and its environment files
have one URL between them, but a template has one for every line and file with one URL: so an
instance may have several, or have one although other URLs are configured for it. -/

namespace UdpAnalyzer

/-! ### What is configured -/

/-- The instance a unit is by its name: what is between the first `@` and the suffix. -/
def instanceOfUnit (name : Str) : Str := removeSuffix serviceSuffix ((afterFirst '@' name).getD [])

/-- The path of an instance. -/
def PosixPath.instantiate (instanceName : Str) (p : PosixPath) : PosixPath :=
  { p with parts := p.parts.map (replaceAll percentI instanceName) }

/-- The URLs configured for a unit or an instance of a template: those of its text and of the
environment file of every line, as systemd expands it. -/
def configuredUrls (fs : FileSystem) (path : PosixPath) (text instanceName : Str) : List Str :=
  extractUrlsFromUnit text ++
    ((environmentFileSpecs (joinSystemdContinuations text)).filter (· ≠ [])).flatMap fun spec =>
      envFileUrls fs ((PosixPath.parse (expandHomeSpecifier fs spec path)).instantiate instanceName)

def TwoUrls (urls : List Str) : Prop := ∃ url ∈ urls, ∃ other ∈ urls, url ≠ other

instance decidableTwoUrls (urls : List Str) : Decidable (TwoUrls urls) :=
  inferInstanceAs (Decidable (∃ url ∈ urls, ∃ other ∈ urls, url ≠ other))

/-- The units of the targets are different, and none has two URLs configured. -/
structure OneUrlEach (fs : FileSystem) (paths : List PosixPath) (targets : List ChannelTarget) :
    Prop where
  distinct : (targets.map ChannelTarget.unit).Nodup
  units : ∀ path ∈ paths, ¬ templateSuffix <:+ path.name → ∀ text, fs.readText path = .ok text →
    TwoUrls (configuredUrls fs path text (instanceOfUnit path.name)) →
    ∀ target ∈ targets, target.unit ≠ path.name
  instances : ∀ path ∈ paths, ∀ head, path.name = head ++ templateSuffix →
    ∀ text, fs.readText path = .ok text → ∀ instanceName,
    TwoUrls (configuredUrls fs path text instanceName) →
    ∀ target ∈ targets, target.unit ≠ instanceUnit head instanceName

/-! ### What has a target -/

/-- There is exactly one URL among some. -/
def oneUrl (urls : List Str) : Bool := (sortedSet urls).length = 1

/-- The files one `EnvironmentFile=` pattern finds, each with the name of its instance. -/
def patternFiles (fs : FileSystem) (templatePath : PosixPath) (spec : Str) :
    List (Str × PosixPath) :=
  if percentI <:+: spec then
    let specPath := PosixPath.parse (expandHomeSpecifier fs spec templatePath)
    match patternParts specPath with
    | none => []
    | some (fhead, ftail) =>
      match fs.glob specPath.parent (fhead ++ '*' :: ftail) with
      | .error _ => []
      | .ok envPaths => ((sortedPaths envPaths).map fun envPath =>
          (instanceOf fhead ftail envPath.name, envPath)).filter fun file => file.1 ≠ []
  else []

/-- The files of a template that have exactly one URL. -/
def soleFiles (fs : FileSystem) (path : PosixPath) (text : Str) : List (Str × PosixPath) :=
  ((environmentFileSpecs (joinSystemdContinuations text)).flatMap (patternFiles fs path)).filter
    fun file => oneUrl (envFileUrls fs file.2)

/-- The units of the targets of one path. -/
def targetUnits (fs : FileSystem) (path : PosixPath) : List Str :=
  match fs.readText path with
  | .error _ => []
  | .ok text =>
    if templateSuffix.isSuffixOf path.name then
      (soleFiles fs path text).map fun file =>
        instanceUnit (removeSuffix templateSuffix path.name) file.1
    else if oneUrl (unitUrls fs path) then [path.name]
    else []

/-- Every target of a path is for what is configured: no instance is found twice with one
URL, and nothing else is configured for one that is, or for a plain unit with one URL. -/
structure OneSource (fs : FileSystem) (path : PosixPath) (text : Str) : Prop where
  once : templateSuffix <:+ path.name → ((soleFiles fs path text).map Prod.fst).Nodup
  alone : templateSuffix <:+ path.name → ∀ file ∈ soleFiles fs path text,
    ¬ TwoUrls (configuredUrls fs path text file.1)
  plain : ¬ templateSuffix <:+ path.name → oneUrl (unitUrls fs path) = true →
    ¬ TwoUrls (configuredUrls fs path text (instanceOfUnit path.name))

/-- The one place where a URL becomes a target: there is one if there is one URL. -/
theorem onlyUrl_units {u : Unicode} {unit : Str} {urls : List Str}
    {f : ChannelTarget → ChannelTarget} {targets : List ChannelTarget}
    (h : (match sortedSet urls with
      | [url] => do
        let target ← channelTargetFromUrl u unit url
        return [f target]
      | _ => (.ok [] : Except PyExc (List ChannelTarget))) = .ok targets)
    (hf : ∀ target, (f target).unit = target.unit) :
    targets.map ChannelTarget.unit = if oneUrl urls then [unit] else [] := by
  unfold oneUrl
  split at h
  · next url hurl =>
    obtain ⟨made, hmade, h⟩ := bind_eq_ok h
    cases h
    rw [hurl, List.map_singleton, hf, (channelTargetFromUrl_eq_ok hmade).1]
    rfl
  · next hmany =>
    cases h
    rw [if_neg]
    · rfl
    · intro hone
      obtain ⟨url, hurl⟩ := List.length_eq_one_iff.mp (of_decide_eq_true hone)
      exact hmany url hurl

theorem instanceTarget_units {u : Unicode} {fs : FileSystem} {head fhead ftail : Str}
    {envPath : PosixPath} {targets : List ChannelTarget}
    (h : instanceTarget u fs head fhead ftail envPath = .ok targets) :
    targets.map ChannelTarget.unit =
      if instanceOf fhead ftail envPath.name ≠ [] ∧ oneUrl (envFileUrls fs envPath) = true then
        [instanceUnit head (instanceOf fhead ftail envPath.name)]
      else [] := by
  unfold instanceTarget at h
  dsimp only at h
  split_ifs at h with hempty
  · cases h
    rw [if_neg (fun hne => hne.1 hempty)]
    rfl
  · obtain ⟨urls, hurls, h⟩ := bind_eq_ok h
    obtain ⟨_, rfl⟩ := urlsFromEnvFile_eq_ok.mp hurls
    rw [onlyUrl_units h (fun _ => rfl)]
    simp only [ne_eq, hempty, not_false_eq_true, true_and]

theorem flatMap_ite_singleton {α β : Type} (p : α → Prop) [DecidablePred p] (g : α → β)
    (l : List α) : (l.flatMap fun a => if p a then [g a] else []) = (l.filter p).map g := by
  induction l with
  | nil => rfl
  | cons a rest ih =>
    rw [List.flatMap_cons, List.filter_cons, ih]
    by_cases ha : p a
    · rw [if_pos ha, if_pos (decide_eq_true ha)]
      rfl
    · rw [if_neg ha, if_neg (by simp [ha])]
      rfl

theorem patternTargets_units {u : Unicode} {fs : FileSystem} {templatePath : PosixPath}
    {head spec : Str} {targets : List ChannelTarget}
    (h : patternTargets u fs templatePath head spec = .ok targets) :
    targets.map ChannelTarget.unit = ((patternFiles fs templatePath spec).filter
      fun file => oneUrl (envFileUrls fs file.2)).map fun file => instanceUnit head file.1 := by
  unfold patternTargets at h
  unfold patternFiles
  split_ifs at h with hpercent
  · rw [if_pos hpercent]
    dsimp only at h ⊢
    cases hparts : patternParts (PosixPath.parse (expandHomeSpecifier fs spec templatePath)) with
    | none =>
      rw [hparts] at h
      cases h
      rfl
    | some parts =>
      obtain ⟨fhead, ftail⟩ := parts
      rw [hparts] at h
      dsimp only at h ⊢
      cases hglob : fs.glob (PosixPath.parse (expandHomeSpecifier fs spec templatePath)).parent
          (fhead ++ '*' :: ftail) with
      | error e =>
        rw [hglob] at h
        cases e <;> cases h
      | ok envPaths =>
        rw [hglob] at h
        obtain ⟨parts, hparts, h⟩ := bind_eq_ok h
        cases h
        rw [map_flatten_of_mapM hparts fun envPath part hpart => instanceTarget_units hpart,
          flatMap_ite_singleton]
        dsimp only
        rw [List.filter_filter, List.filter_map, List.map_map]
        congr 1
        apply List.filter_congr
        intro envPath _
        simp [and_comm]
  · cases h
    rw [if_neg hpercent]
    rfl

theorem unitTargets_units {u : Unicode} {fs : FileSystem} {path : PosixPath}
    {targets : List ChannelTarget} (h : unitTargets u fs path = .ok targets) :
    targets.map ChannelTarget.unit = targetUnits fs path := by
  unfold unitTargets readTextOr at h
  unfold targetUnits
  cases hread : fs.readText path with
  | error e =>
    rw [hread] at h
    cases e with
    | os =>
      cases h
      rfl
    | unicode => cases h
    | nul => cases h
  | ok text =>
    rw [hread] at h
    dsimp only at h ⊢
    by_cases htemplate : templateSuffix.isSuffixOf path.name = true
    · rw [if_pos htemplate] at h ⊢
      obtain ⟨parts, hparts, h⟩ := bind_eq_ok h
      cases h
      rw [map_flatten_of_mapM hparts fun spec part hpart => patternTargets_units hpart, soleFiles,
        List.filter_flatMap, List.map_flatMap]
    · rw [if_neg htemplate] at h ⊢
      obtain ⟨envUrls, henv, h⟩ := bind_eq_ok h
      obtain ⟨-, rfl⟩ := mapM_urlsFromEnvFile.mp henv
      have hurls : unitUrls fs path = extractUrlsFromUnit text ++ ((environmentFilePaths fs
          (joinSystemdContinuations text) path).map (envFileUrls fs)).flatten := by
        unfold unitUrls
        rw [hread]
        rfl
      rw [hurls]
      exact onlyUrl_units h fun _ => rfl

theorem loadChannelTargets_units {u : Unicode} {fs : FileSystem} {paths : List PosixPath}
    {targets : List ChannelTarget} (h : loadChannelTargets u fs paths = .ok targets) :
    targets.map ChannelTarget.unit = paths.flatMap (targetUnits fs) := by
  obtain ⟨parts, hparts, rfl⟩ := loadChannelTargets_eq_ok.mp h
  exact map_flatten_of_mapM hparts fun path part hpart => unitTargets_units hpart

/-! ### The units of a list of paths -/

/-- The paths are of different units: their file names are different, what is before the `@`
of a template has none itself, and no plain unit has the name of an instance. -/
structure DifferentUnits (paths : List PosixPath) : Prop where
  names : (paths.map PosixPath.name).Nodup
  heads : ∀ path ∈ paths, ∀ head, path.name = head ++ templateSuffix → '@' ∉ head
  plain : ∀ path ∈ paths, ¬ templateSuffix <:+ path.name → ∀ template ∈ paths, ∀ head instanceName,
    template.name = head ++ templateSuffix → path.name ≠ instanceUnit head instanceName

/-- A unit of a target is an instance of a template that has a file with one URL, or a plain
unit that has one URL. -/
theorem mem_targetUnits {fs : FileSystem} {path : PosixPath} {unit : Str} :
    unit ∈ targetUnits fs path ↔ ∃ text, fs.readText path = .ok text ∧
      ((∃ head, path.name = head ++ templateSuffix ∧ ∃ file ∈ soleFiles fs path text,
          unit = instanceUnit head file.1) ∨
        ¬ templateSuffix <:+ path.name ∧ oneUrl (unitUrls fs path) = true ∧ unit = path.name) := by
  unfold targetUnits
  cases hread : fs.readText path with
  | error e => simp
  | ok text =>
    simp only [Except.ok.injEq, exists_eq_left']
    by_cases htemplate : templateSuffix <:+ path.name
    · rw [if_pos (List.isSuffixOf_iff_suffix.mpr htemplate)]
      obtain ⟨head, hhead⟩ := htemplate
      rw [← hhead, removeSuffix_append, List.mem_map]
      constructor
      · rintro ⟨file, hfile, rfl⟩
        exact .inl ⟨head, rfl, file, hfile, rfl⟩
      · rintro (⟨head', hhead', file, hfile, rfl⟩ | ⟨hplain, -⟩)
        · rw [List.append_cancel_right hhead']
          exact ⟨file, hfile, rfl⟩
        · exact absurd (List.suffix_append head templateSuffix) hplain
    · rw [if_neg (fun h => htemplate (List.isSuffixOf_iff_suffix.mp h))]
      constructor
      · intro hunit
        split_ifs at hunit with hone
        · exact .inr ⟨htemplate, hone, List.mem_singleton.mp hunit⟩
        · cases hunit
      · rintro (⟨head, hhead, -⟩ | ⟨-, hone, rfl⟩)
        · exact absurd ⟨head, hhead.symm⟩ htemplate
        · rw [if_pos hone]
          exact List.mem_singleton_self _

section

variable {fs : FileSystem} {paths : List PosixPath} (h : DifferentUnits paths)
include h

theorem DifferentUnits.eq_of_name {path path' : PosixPath} (hpath : path ∈ paths)
    (hpath' : path' ∈ paths) (hname : path.name = path'.name) : path = path' :=
  List.inj_on_of_nodup_map h.names hpath hpath' hname

/-- The name of an instance is the unit of a target of its template only. -/
theorem DifferentUnits.mem_instanceUnit {path path' : PosixPath} (hpath : path ∈ paths)
    (hpath' : path' ∈ paths) {head instanceName : Str} (hhead : path.name = head ++ templateSuffix)
    (hunit : instanceUnit head instanceName ∈ targetUnits fs path') :
    path = path' ∧ ∃ text, fs.readText path = .ok text ∧
      ∃ file ∈ soleFiles fs path text, file.1 = instanceName := by
  obtain ⟨text, hread, ⟨head', hhead', file, hfile, hsame⟩ | ⟨hplain, -, hsame⟩⟩ :=
    mem_targetUnits.mp hunit
  · obtain ⟨rfl, hname⟩ := instanceUnit_inj (h.heads path hpath head hhead)
      (h.heads path' hpath' head' hhead') hsame
    obtain rfl := h.eq_of_name hpath hpath' (hhead.trans hhead'.symm)
    exact ⟨rfl, text, hread, file, hfile, hname.symm⟩
  · exact absurd hsame.symm (h.plain path' hpath' hplain path hpath head instanceName hhead)

/-- The name of a plain unit is the unit of its own target only. -/
theorem DifferentUnits.mem_name {path path' : PosixPath} (hpath : path ∈ paths)
    (hpath' : path' ∈ paths) (hplain : ¬ templateSuffix <:+ path.name)
    (hunit : path.name ∈ targetUnits fs path') :
    path = path' ∧ oneUrl (unitUrls fs path) = true := by
  obtain ⟨text, hread, ⟨head, hhead, file, hfile, hsame⟩ | ⟨-, hone, hsame⟩⟩ :=
    mem_targetUnits.mp hunit
  · exact absurd hsame (h.plain path hpath hplain path' hpath' head file.1 hhead)
  · obtain rfl := h.eq_of_name hpath hpath' hsame
    exact ⟨rfl, hone⟩

/-- Two of different units have no unit of a target in common. -/
theorem DifferentUnits.eq_of_mem {path path' : PosixPath} (hpath : path ∈ paths)
    (hpath' : path' ∈ paths) {unit : Str} (hunit : unit ∈ targetUnits fs path)
    (hunit' : unit ∈ targetUnits fs path') : path = path' := by
  obtain ⟨text, hread, ⟨head, hhead, file, hfile, rfl⟩ | ⟨hplain, -, rfl⟩⟩ :=
    mem_targetUnits.mp hunit
  · exact (h.mem_instanceUnit hpath hpath' hhead hunit').1
  · exact (h.mem_name hpath hpath' hplain hunit').1

/-- The units of the targets are different if those of each path are. -/
theorem DifferentUnits.nodup_iff : (paths.flatMap (targetUnits fs)).Nodup ↔
    ∀ path ∈ paths, (targetUnits fs path).Nodup := by
  rw [List.nodup_flatMap, and_iff_left]
  refine (List.Nodup.of_map _ h.names).imp_of_mem fun {path path'} hpath hpath' hne => ?_
  exact fun unit hunit hunit' => hne (h.eq_of_mem hpath hpath' hunit hunit')

end

theorem targetUnits_template {fs : FileSystem} {path : PosixPath} {text head : Str}
    (hread : fs.readText path = .ok text) (hhead : path.name = head ++ templateSuffix) :
    targetUnits fs path = ((soleFiles fs path text).map Prod.fst).map (instanceUnit head) := by
  have htemplate : templateSuffix.isSuffixOf path.name = true :=
    List.isSuffixOf_iff_suffix.mpr ⟨head, hhead.symm⟩
  unfold targetUnits
  rw [hread]
  dsimp only
  rw [if_pos htemplate, hhead, removeSuffix_append, List.map_map]
  rfl

theorem targetUnits_plain {fs : FileSystem} {path : PosixPath}
    (hplain : ¬ templateSuffix <:+ path.name) : (targetUnits fs path).Nodup := by
  unfold targetUnits
  cases fs.readText path with
  | error e => exact List.nodup_nil
  | ok text =>
    dsimp only
    rw [if_neg (fun h => hplain (List.isSuffixOf_iff_suffix.mp h))]
    split_ifs
    · exact List.nodup_singleton _
    · exact List.nodup_nil

theorem instanceUnit_injective {head : Str} (hhead : '@' ∉ head) :
    Function.Injective (instanceUnit head) :=
  fun _ _ h => (instanceUnit_inj hhead hhead h).2

/-- For every list of paths of different units, and every content of the files: the targets are
of different units, and none of a unit or an instance with two URLs configured, exactly when
every instance is found with one URL once, and nothing else is configured where one URL makes
a target. -/
theorem one_url_each_iff {u : Unicode} {fs : FileSystem} {paths : List PosixPath}
    {targets : List ChannelTarget} (hload : loadChannelTargets u fs paths = .ok targets)
    (hunits : DifferentUnits paths) :
    OneUrlEach fs paths targets ↔
      ∀ path ∈ paths, ∀ text, fs.readText path = .ok text → OneSource fs path text := by
  have hnames := loadChannelTargets_units hload
  have hmem : ∀ unit, (∃ target ∈ targets, target.unit = unit) ↔
      ∃ path ∈ paths, unit ∈ targetUnits fs path := by
    intro unit
    rw [← List.mem_map, hnames, List.mem_flatMap]
  constructor
  · intro h path hpath text hread
    constructor
    · rintro ⟨head, hhead⟩
      have hdistinct := h.distinct
      rw [hnames, hunits.nodup_iff] at hdistinct
      have hown := hdistinct path hpath
      rw [targetUnits_template hread hhead.symm] at hown
      exact List.Nodup.of_map _ hown
    · rintro ⟨head, hhead⟩ file hfile htwo
      have hunit : instanceUnit head file.1 ∈ targetUnits fs path :=
        mem_targetUnits.mpr ⟨text, hread, .inl ⟨head, hhead.symm, file, hfile, rfl⟩⟩
      obtain ⟨target, htarget, hsame⟩ := (hmem _).mpr ⟨path, hpath, hunit⟩
      exact h.instances path hpath head hhead.symm text hread file.1 htwo target htarget hsame
    · intro hplain hone htwo
      have hunit : path.name ∈ targetUnits fs path :=
        mem_targetUnits.mpr ⟨text, hread, .inr ⟨hplain, hone, rfl⟩⟩
      obtain ⟨target, htarget, hsame⟩ := (hmem _).mpr ⟨path, hpath, hunit⟩
      exact h.units path hpath hplain text hread htwo target htarget hsame
  · intro h
    constructor
    · rw [hnames, hunits.nodup_iff]
      intro path hpath
      by_cases htemplate : templateSuffix <:+ path.name
      · obtain ⟨head, hhead⟩ := htemplate
        cases hread : fs.readText path with
        | error e =>
          have hnone : targetUnits fs path = [] := by
            unfold targetUnits
            rw [hread]
          rw [hnone]
          exact List.nodup_nil
        | ok text =>
          rw [targetUnits_template hread hhead.symm]
          exact ((h path hpath text hread).once ⟨head, hhead⟩).map
            (instanceUnit_injective (hunits.heads path hpath head hhead.symm))
      · exact targetUnits_plain htemplate
    · intro path hpath hplain text hread htwo target htarget hsame
      obtain ⟨path', hpath', hunit⟩ := (hmem _).mp ⟨target, htarget, hsame⟩
      obtain ⟨rfl, hone⟩ := hunits.mem_name hpath hpath' hplain hunit
      exact (h path hpath text hread).plain hplain hone htwo
    · intro path hpath head hhead text hread instanceName htwo target htarget hsame
      obtain ⟨path', hpath', hunit⟩ := (hmem _).mp ⟨target, htarget, hsame⟩
      obtain ⟨rfl, text', hread', file, hfile, rfl⟩ :=
        hunits.mem_instanceUnit hpath hpath' hhead hunit
      cases hread.symm.trans hread'
      exact (h path hpath text hread).alone ⟨head, hhead.symm⟩ file hfile htwo

theorem differentUnits_ffmpeg : DifferentUnits [userUnit "ffmpeg@.service"] where
  names := by decide +kernel
  heads := by
    intro path hpath head hhead
    rw [List.mem_singleton.mp hpath] at hhead
    have hsame : "ffmpeg".toList ++ templateSuffix = head ++ templateSuffix := hhead
    rw [← List.append_cancel_right hsame]
    decide +kernel
  plain := by
    intro path hpath hplain
    rw [List.mem_singleton.mp hpath] at hplain
    exact absurd (by decide +kernel) hplain

theorem one_url_each_iff_recorder :
    OneUrlEach (recorderFiles "radio-1") [userUnit "ffmpeg@.service"] [recorderTarget "radio-1"] := by
  have hload : loadChannelTargets .ascii (recorderFiles "radio-1") [userUnit "ffmpeg@.service"] =
      .ok [recorderTarget "radio-1"] := by decide +kernel
  apply (one_url_each_iff hload differentUnits_ffmpeg).mpr
  intro path hpath text hread
  rw [List.mem_singleton.mp hpath] at hread ⊢
  cases recorderTemplate.readText_path.symm.trans hread
  exact ⟨fun _ => by decide +kernel, fun _ => by decide +kernel,
    fun hplain => absurd (by decide +kernel) hplain⟩

/-! A template with two lines, each of which has an environment file for the same instance. -/

def newDirectory : PosixPath := .parse "/etc/ffmpeg-new".toList

def twoLineFiles : FileSystem where
  bytes path :=
    if path = userUnit "ffmpeg@.service" then
      some (asciiBytes ("[Service]\nEnvironmentFile=/etc/ffmpeg-rec/%i.env\n".toList ++
        "EnvironmentFile=/etc/ffmpeg-new/%i.env\n".toList))
    else if path = recorderDirectory.child "radio-1.env".toList then
      some (asciiBytes "INPUT_URL=http://radio.example/a\n".toList)
    else if path = newDirectory.child "radio-1.env".toList then
      some (asciiBytes "INPUT_URL=http://radio.example/b\n".toList)
    else none
  isDir path := some (path = recorderDirectory ∨ path = newDirectory)
  names path :=
    if path = recorderDirectory ∨ path = newDirectory then some ["radio-1.env".toList] else none

def newTarget : ChannelTarget :=
  { recorderTarget "radio-1" with url := "http://radio.example/b".toList, path := "/b".toList }

/-- The instance has two targets, with different URLs. -/
theorem instance_has_two_targets :
    loadChannelTargets .ascii twoLineFiles [userUnit "ffmpeg@.service"] =
        .ok [recorderTarget "radio-1", newTarget] ∧
      DifferentUnits [userUnit "ffmpeg@.service"] ∧
      ¬ OneUrlEach twoLineFiles [userUnit "ffmpeg@.service"] [recorderTarget "radio-1", newTarget] :=
  ⟨by decide +kernel, differentUnits_ffmpeg, fun h => absurd h.distinct (by decide +kernel)⟩

end UdpAnalyzer
