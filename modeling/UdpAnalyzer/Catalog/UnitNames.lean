import Mathlib.Data.List.Infix
import UdpAnalyzer.Catalog.Registration
import UdpAnalyzer.Channel.Cgroup

/-! The unit name of a template instance, on the two sides that have to agree on it: the
catalog makes it from the template's and the environment file's name, and the collector
reads it from the cgroup of a process, as what follows the last colon of a line. They
agree exactly when the name has no colon. -/

namespace UdpAnalyzer

/-! ### Reading the name back -/

/-- A character of the part of a unit name before `@`. -/
def isUnitNameChar (c : Char) : Bool :=
  isAsciiAlpha c || isAsciiDigit c || c ∈ [':', '-', '_', '.', '\\']

/-- The line of a process in the unit: a cgroup of version 2, under some slices. -/
def cgroupLine (slices unit : Str) : Str := "0::".toList ++ slices ++ '/' :: unit

/-- Unit names are printable, and they are file names. -/
theorem rtakeWhile_append_of_forall {α : Type} {p : α → Bool} {front back : List α}
    (h : ∀ a ∈ back, p a = true) : (front ++ back).rtakeWhile p = front.rtakeWhile p ++ back := by
  unfold List.rtakeWhile
  rw [List.reverse_append, List.takeWhile_append_of_pos (by simpa using h), List.reverse_append,
    List.reverse_reverse]

theorem isUnitNameChar_plain {c : Char} (h : isUnitNameChar c = true ∨ c = '@') :
    isLineBreak c = false ∧ c ≠ '/' := by
  have hbounds : 45 ≤ c.toNat ∧ c.toNat ≤ 122 ∧ c.toNat ≠ 47 := by
    rcases h with h | rfl
    · simp only [isUnitNameChar, isAsciiAlpha, isAsciiDigit, Bool.or_eq_true, Bool.and_eq_true,
        decide_eq_true_eq, List.mem_cons, List.not_mem_nil, or_false, Char.le_def,
        UInt32.le_iff_toNat_le] at h
      rcases h with ((⟨hlow, hhigh⟩ | ⟨hlow, hhigh⟩) | ⟨hlow, hhigh⟩) | hother
      · have hlow : 97 ≤ c.toNat := hlow
        have hhigh : c.toNat ≤ 122 := hhigh
        omega
      · have hlow : 65 ≤ c.toNat := hlow
        have hhigh : c.toNat ≤ 90 := hhigh
        omega
      · have hlow : 48 ≤ c.toNat := hlow
        have hhigh : c.toNat ≤ 57 := hhigh
        omega
      · rcases hother with rfl | rfl | rfl | rfl | rfl <;> decide
    · decide
  constructor
  · simp only [isLineBreak, Bool.or_eq_false_iff, Bool.and_eq_false_iff, decide_eq_false_iff_not]
    omega
  · rintro rfl
    exact absurd rfl hbounds.2.2

theorem mem_intercalate {α : Type} {sep : List α} {parts : List (List α)} {a : α}
    (h : a ∈ sep.intercalate parts) (last : List α) : a ∈ sep.intercalate (parts ++ [last]) := by
  induction parts with
  | nil => cases h
  | cons first rest ih =>
    have hsplit : sep.intercalate (first :: rest ++ [last]) =
        first ++ sep ++ sep.intercalate (rest ++ [last]) := by
      have hne : rest ++ [last] ≠ [] := by simp
      exact List.intercalate_cons_of_ne_nil hne
    rw [hsplit]
    cases rest with
    | nil =>
      rw [List.intercalate_singleton] at h
      exact List.mem_append_left _ (List.mem_append_left _ h)
    | cons second others =>
      rw [List.intercalate_cons_cons] at h
      rcases List.mem_append.mp h with hfirst | hrest
      · exact List.mem_append_left _ hfirst
      · exact List.mem_append_right _ (ih hrest)

theorem mem_intercalate_of_mem {α : Type} {sep part : List α} {parts : List (List α)}
    (h : part ∈ parts) {a : α} (ha : a ∈ part) : a ∈ sep.intercalate parts := by
  induction parts with
  | nil => cases h
  | cons first rest ih =>
    cases rest with
    | nil =>
      rcases List.mem_singleton.mp h with rfl
      simpa [List.intercalate] using ha
    | cons second others =>
      rw [List.intercalate_cons_cons]
      rcases List.mem_cons.mp h with rfl | hrest
      · exact List.mem_append_left _ (List.mem_append_left _ ha)
      · exact List.mem_append_right _ (ih hrest)

theorem mem_splitOn_subset {sep : Char} {text part : Str} (h : part ∈ text.splitOn sep) {c : Char}
    (hc : c ∈ part) : c ∈ text := by
  have hjoined : [sep].intercalate (text.splitOn sep) = text := List.intercalate_splitOn sep
  rw [← hjoined]
  exact mem_intercalate_of_mem h hc

/-- What follows the last colon has none. -/
theorem not_mem_afterLast {sep : Char} {text after : Str} (h : afterLast sep text = some after) :
    sep ∉ after := by
  unfold afterLast at h
  split_ifs at h
  cases h
  intro hmem
  have hne := List.mem_rtakeWhile_imp hmem
  simp at hne

theorem unitsOfLine_no_colon {line unit : Str} (h : unit ∈ unitsOfLine line) : ':' ∉ unit := by
  unfold unitsOfLine at h
  split at h
  · cases h
  · next path hpath =>
    intro hcolon
    have hpart := (List.mem_filter.mp h).1
    exact not_mem_afterLast hpath (mem_splitOn_subset hpart hcolon)

theorem unitFromCgroupText_no_colon (text : Str) : ':' ∉ unitFromCgroupText text := by
  unfold unitFromCgroupText
  cases hlast : ((splitLines text).flatMap unitsOfLine).getLast? with
  | none => exact List.not_mem_nil
  | some unit =>
    obtain ⟨line, _, hunit⟩ := List.mem_flatMap.mp (List.mem_of_getLast? hlast)
    exact unitsOfLine_no_colon hunit

/-- A unit name without a colon is read back from the line of a process in the unit. -/
theorem unitsOfLine_cgroupLine {slices unit : Str} (hcolon : ':' ∉ unit) (hslash : '/' ∉ unit)
    (hunit : isUnitPart unit = true) :
    ∃ outer, unitsOfLine (cgroupLine slices unit) = outer ++ [unit] := by
  have hafter : ∃ path, afterLast ':' (cgroupLine slices unit) = some (path ++ '/' :: unit) := by
    have hmem : ':' ∈ cgroupLine slices unit := by
      apply List.mem_append_left
      exact List.mem_append_left _ (by decide)
    refine ⟨("0::".toList ++ slices).rtakeWhile (· ≠ ':'), ?_⟩
    unfold afterLast
    rw [if_pos hmem]
    congr 1
    unfold cgroupLine
    have hplain : ∀ c ∈ '/' :: unit, decide (c ≠ ':') = true := by
      intro c hc
      apply decide_eq_true
      rintro rfl
      rcases List.mem_cons.mp hc with h | h
      · cases h
      · exact hcolon h
    rw [rtakeWhile_append_of_forall hplain]
  obtain ⟨path, hpath⟩ := hafter
  unfold unitsOfLine
  rw [hpath]
  dsimp only
  rw [List.splitOn_append_cons_self, List.splitOn_eq_singleton hslash, List.filter_append]
  exact ⟨_, by rw [List.filter_singleton, hunit, cond_true]⟩

/-! ### Names of instances -/

/-- A text is cut at its first separator in one way. -/
theorem eq_of_append_cons_eq {sep : Char} {a a' b b' : Str} (ha : sep ∉ a) (ha' : sep ∉ a')
    (h : a ++ sep :: b = a' ++ sep :: b') : a = a' ∧ b = b' := by
  induction a generalizing a' with
  | nil =>
    cases a' with
    | nil => exact ⟨rfl, (List.cons.inj h).2⟩
    | cons c rest => exact absurd ((List.cons.inj h).1 ▸ List.mem_cons_self) ha'
  | cons c rest ih =>
    cases a' with
    | nil => exact absurd ((List.cons.inj h).1 ▸ List.mem_cons_self) ha
    | cons c' rest' =>
      obtain ⟨rfl, htail⟩ := List.cons.inj h
      obtain ⟨hrest, hb⟩ := ih (fun hmem => ha (List.mem_cons_of_mem _ hmem))
        (fun hmem => ha' (List.mem_cons_of_mem _ hmem)) htail
      exact ⟨congrArg (c :: ·) hrest, hb⟩

/-- The name of a template has no `@`, so that the unit has the names of both. -/
theorem instanceUnit_inj {head head' name name' : Str} (hhead : '@' ∉ head) (hhead' : '@' ∉ head')
    (h : instanceUnit head name = instanceUnit head' name') : head = head' ∧ name = name' :=
  eq_of_append_cons_eq hhead hhead' (List.append_cancel_right h)

/-! ### Instances of a template -/

/-- A template unit whose environment files are `directory/%i.env`. -/
structure EnvTemplate (fs : FileSystem) where
  head : Str
  head_chars : ∀ c ∈ head, isUnitNameChar c = true
  head_ne_user : head ≠ "user".toList
  path : PosixPath
  path_name : path.name = head ++ templateSuffix
  text : Str
  readText_path : fs.readText path = .ok text
  spec : Str
  spec_mem : spec ∈ environmentFileSpecs (joinSystemdContinuations text)
  percentI_spec : percentI <:+: spec
  directory : PosixPath
  directory_plain : ¬ percentI <:+: directory.toText
  spec_path : .parse (expandHomeSpecifier fs spec path) = directory.child "%i.env".toList

theorem EnvTemplate.head_no_at {fs : FileSystem} (template : EnvTemplate fs) :
    '@' ∉ template.head := by
  intro hat
  have hchar := template.head_chars '@' hat
  revert hchar
  decide

/-- An instance of the template: there is an environment file of its name, and it has
exactly one URL. -/
structure EnvInstance {fs : FileSystem} (template : EnvTemplate fs) where
  name : Str
  name_ne : name ≠ []
  name_chars : ∀ c ∈ name, isUnitNameChar c = true ∨ c = '@'
  isDir_directory : fs.isDir template.directory = some true
  entries : List Str
  names_directory : fs.names template.directory = some entries
  mem_entries : name ++ ".env".toList ∈ entries
  url : Str
  only_url : OnlyUrl (envFileUrls fs (template.directory.child (name ++ ".env".toList))) url

namespace EnvInstance

variable {fs : FileSystem} {template : EnvTemplate fs} (inst : EnvInstance template)

def unit : Str := instanceUnit template.head inst.name

def envPath : PosixPath := template.directory.child (inst.name ++ ".env".toList)

omit inst in
theorem mem_toText_child (p : PosixPath) (name : Str) {c : Char} (hc : c ≠ '.')
    (h : c ∈ p.toText) : c ∈ (p.child name).toText := by
  unfold PosixPath.toText at h ⊢
  have hchild : ¬ ((p.child name).root = [] ∧ (p.child name).parts = []) := by
    simp [PosixPath.child]
  rw [if_neg hchild]
  split_ifs at h
  · exact absurd (List.mem_singleton.mp h) hc
  · rcases List.mem_append.mp h with hroot | hparts
    · exact List.mem_append_left _ hroot
    · exact List.mem_append_right _ (mem_intercalate hparts name)

include inst in
/-- The environment file can be read, or it would have no URL. -/
theorem nul_not_mem_directory : '\x00' ∉ template.directory.toText := by
  intro hnul
  have hread : fs.readText inst.envPath = .error .nul := by
    unfold FileSystem.readText
    exact if_pos (mem_toText_child _ _ (by decide) hnul)
  have hurls : envFileUrls fs inst.envPath = [] := by
    unfold envFileUrls
    rw [hread]
  have honly : OnlyUrl [] inst.url := hurls ▸ inst.only_url
  cases (honly inst.url).mpr rfl

/-- The pattern finds the environment file. -/
theorem glob_finds : ∃ envPaths, fs.glob template.directory ('*' :: ".env".toList) = .ok envPaths ∧
    inst.envPath ∈ envPaths := by
  have hplain : ¬ ('*' :: ".env".toList ≠ ['*', '*'] ∧ ['*', '*'] <:+: '*' :: ".env".toList) := by
    decide
  have hmatches : Glob.fnmatch (Glob.parse ('*' :: ".env".toList)) (inst.name ++ ".env".toList) := by
    show (inst.name ++ ".env".toList).tails.any (Glob.fnmatch (Glob.parse ".env".toList)) = true
    apply List.any_eq_true.mpr
    exact ⟨".env".toList, (List.mem_tails _ _).mpr (List.suffix_append _ _), by decide⟩
  have hglob : fs.glob template.directory ('*' :: ".env".toList) =
      .ok ((inst.entries.filter (Glob.fnmatch (Glob.parse ('*' :: ".env".toList)))).map
        template.directory.child) := by
    unfold FileSystem.glob
    rw [if_neg hplain, if_neg inst.nul_not_mem_directory, inst.isDir_directory,
      inst.names_directory]
    rfl
  refine ⟨_, hglob, ?_⟩
  apply List.mem_map_of_mem
  exact List.mem_filter.mpr ⟨inst.mem_entries, hmatches⟩

theorem instanceOf_envPath : instanceOf [] ".env".toList inst.envPath.name = inst.name := by
  have hname : inst.envPath.name = inst.name ++ ".env".toList := PosixPath.name_child _ _
  have hsuffix : ".env".toList.isSuffixOf (inst.name ++ ".env".toList) = true :=
    List.isSuffixOf_iff_suffix.mpr (List.suffix_append _ _)
  unfold instanceOf
  rw [hname, hsuffix, List.length_append, Nat.add_sub_cancel, List.take_left]
  rfl

/-- The pattern has a target for the instance. -/
theorem registered_by_pattern {u : Unicode} {targets : List ChannelTarget}
    (h : patternTargets u fs template.path template.head template.spec = .ok targets) :
    ∃ target ∈ targets, target.unit = inst.unit ∧ target.channel = inst.name := by
  have hparts : patternParts (template.directory.child "%i.env".toList) =
      some ([], ".env".toList) := by
    unfold patternParts
    rw [PosixPath.parent_child, PosixPath.name_child, if_neg template.directory_plain]
    decide
  obtain ⟨envPaths, hglob, hmem⟩ := inst.glob_finds
  have hmem : inst.envPath ∈ sortedPaths envPaths := mem_sortedPaths.mpr hmem
  unfold patternTargets at h
  rw [if_pos template.percentI_spec, template.spec_path] at h
  dsimp only at h
  rw [hparts] at h
  dsimp only at h
  rw [PosixPath.parent_child, List.nil_append, hglob] at h
  obtain ⟨perFile, hperFile, h⟩ := bind_eq_ok h
  cases h
  obtain ⟨own, hown⟩ := returns_of_mem_mapM hperFile hmem
  obtain ⟨hunit, hne⟩ := instanceTarget_eq_ok hown
  rw [inst.instanceOf_envPath] at hunit hne
  obtain ⟨target, htarget⟩ := List.exists_mem_of_ne_nil own (hne inst.name_ne _ inst.only_url)
  obtain ⟨htargetUnit, htargetChannel⟩ := hunit target htarget
  have hflatten : target ∈ perFile.flatten :=
    (mem_flatten_of_mapM hperFile).mpr ⟨inst.envPath, hmem, own, hown, htarget⟩
  rw [htargetChannel] at htargetUnit
  exact ⟨target, hflatten, htargetUnit, htargetChannel⟩

/-- The template has a target for the instance. -/
theorem registered {u : Unicode} {targets : List ChannelTarget}
    (h : unitTargets u fs template.path = .ok targets) :
    ∃ target ∈ targets, target.unit = inst.unit ∧ target.channel = inst.name := by
  have htemplate : templateSuffix.isSuffixOf template.path.name = true := by
    rw [template.path_name]
    exact List.isSuffixOf_iff_suffix.mpr (List.suffix_append _ _)
  unfold unitTargets readTextOr at h
  rw [template.readText_path] at h
  dsimp only at h
  rw [if_pos htemplate] at h
  unfold templateInstanceTargets at h
  rw [template.path_name, removeSuffix_append] at h
  obtain ⟨parts, hparts, h⟩ := bind_eq_ok h
  cases h
  obtain ⟨part, hpart⟩ := returns_of_mem_mapM hparts template.spec_mem
  obtain ⟨target, htarget, hnames⟩ := inst.registered_by_pattern hpart
  have hflatten : target ∈ parts.flatten :=
    (mem_flatten_of_mapM hparts).mpr ⟨template.spec, template.spec_mem, part, hpart, htarget⟩
  exact ⟨target, hflatten, hnames⟩

theorem unit_plain : ∀ c ∈ inst.unit, isLineBreak c = false ∧ c ≠ '/' := by
  intro c hc
  have hsuffix : ∀ c ∈ serviceSuffix, isLineBreak c = false ∧ c ≠ '/' :=
    forall_mem_of_all (by decide)
  rcases List.mem_append.mp hc with hc | hc
  · rcases List.mem_append.mp hc with hc | hc
    · exact isUnitNameChar_plain (.inl (template.head_chars c hc))
    · rcases List.mem_cons.mp hc with rfl | hc
      · exact isUnitNameChar_plain (.inr rfl)
      · exact isUnitNameChar_plain (inst.name_chars c hc)
  · exact hsuffix c hc

theorem colon_mem_unit : ':' ∈ inst.unit ↔ ':' ∈ template.head ∨ ':' ∈ inst.name := by
  have hsuffix : ':' ∉ serviceSuffix := by decide
  unfold unit instanceUnit
  simp [hsuffix]

/-- Without a colon, the name of the unit is what the collector reads. -/
theorem unitFromCgroupText_line (hcolon : ':' ∉ inst.unit) {slices eol : Str}
    (hslices : ∀ c ∈ slices, isLineBreak c = false) (heol : eol = [] ∨ eol = ['\n']) :
    unitFromCgroupText (cgroupLine slices inst.unit ++ eol) = inst.unit := by
  have hunbroken : ∀ c ∈ cgroupLine slices inst.unit, isLineBreak c = false := by
    intro c hc
    have hhead : ∀ c ∈ "0::".toList, isLineBreak c = false := forall_mem_of_all (by decide)
    rcases List.mem_append.mp hc with hc | hc
    · rcases List.mem_append.mp hc with hc | hc
      · exact hhead c hc
      · exact hslices c hc
    · rcases List.mem_cons.mp hc with rfl | hc
      · rfl
      · exact (inst.unit_plain c hc).1
  have hlines : splitLines (cgroupLine slices inst.unit ++ eol) = [cgroupLine slices inst.unit] := by
    rcases heol with rfl | rfl
    · rw [List.append_nil]
      exact splitLines_of_unbroken hunbroken (by simp [cgroupLine])
    · exact splitLines_line hunbroken
  have hpart : isUnitPart inst.unit = true := by
    have hsuffix : ".service".toList.isSuffixOf inst.unit = true :=
      List.isSuffixOf_iff_suffix.mpr (List.suffix_append _ _)
    have huser : "user@".toList.isPrefixOf inst.unit = false := by
      apply Bool.eq_false_iff.mpr
      intro hprefix
      have hat : '@' ∉ "user".toList := by decide
      obtain ⟨rest, hrest⟩ := List.isPrefixOf_iff_prefix.mp hprefix
      have hsame : "user".toList ++ '@' :: rest =
          template.head ++ '@' :: (inst.name ++ serviceSuffix) := by
        have hunit : inst.unit = template.head ++ ('@' :: inst.name ++ serviceSuffix) :=
          List.append_assoc _ _ _
        exact hrest.trans hunit
      exact template.head_ne_user (eq_of_append_cons_eq hat template.head_no_at hsame).1.symm
    unfold isUnitPart
    rw [hsuffix, huser]
    rfl
  have hslash : '/' ∉ inst.unit := fun h => (inst.unit_plain '/' h).2 rfl
  obtain ⟨outer, houter⟩ : ∃ outer,
      unitsOfLine (cgroupLine slices inst.unit) = outer ++ [inst.unit] :=
    unitsOfLine_cgroupLine hcolon hslash hpart
  unfold unitFromCgroupText
  rw [hlines, List.flatMap_singleton, houter, List.getLast?_append]
  rfl

end EnvInstance

/-! ### Agreement -/

/-- The catalog finds the instance under the unit read from a cgroup file. -/
def FindsInstance (targets : List ChannelTarget) (unit instanceName cgroupText : Str) : Prop :=
  unitFromCgroupText cgroupText = unit ∧ ∀ dstIp dstPort,
    let found := (ChannelCatalog.ofTargets targets).matchFlow (unitFromCgroupText cgroupText)
      dstIp dstPort
    found.status ≠ .unknownUnit ∧
      ∃ target, found.target = some target ∧ target.unit = unit ∧ target.channel = instanceName

/-- For every template, every instance of it that has exactly one URL, and every list of
unit files that loads and has no other file of the same unit: the instance is registered
under its name, and the catalog finds it by the cgroup of its processes exactly when there
is no colon in the names of the template and the instance. -/
theorem finds_instance_iff (u : Unicode) (fs : FileSystem) (template : EnvTemplate fs)
    (inst : EnvInstance template) (paths : List PosixPath) (targets : List ChannelTarget)
    (hload : loadChannelTargets u fs paths = .ok targets) (hpath : template.path ∈ paths)
    (hother : ∀ path ∈ paths, path.name ≠ inst.unit ∧
      ∀ head, path.name = head ++ templateSuffix → '@' ∉ head)
    (slices eol : Str) (hslices : ∀ c ∈ slices, isLineBreak c = false)
    (heol : eol = [] ∨ eol = ['\n']) :
    (∃ target ∈ targets, target.unit = inst.unit ∧ target.channel = inst.name) ∧
      (FindsInstance targets inst.unit inst.name (cgroupLine slices inst.unit ++ eol) ↔
        ':' ∉ template.head ∧ ':' ∉ inst.name) := by
  obtain ⟨parts, hparts, rfl⟩ := loadChannelTargets_eq_ok.mp hload
  have hregistered : ∃ target ∈ parts.flatten,
      target.unit = inst.unit ∧ target.channel = inst.name := by
    obtain ⟨part, hpart⟩ := returns_of_mem_mapM hparts hpath
    obtain ⟨target, htarget, hnames⟩ := inst.registered hpart
    exact ⟨target, (mem_flatten_of_mapM hparts).mpr ⟨_, hpath, part, hpart, htarget⟩, hnames⟩
  have hchannel : ∀ target ∈ parts.flatten, target.unit = inst.unit →
      target.channel = inst.name := by
    intro target htarget hunit
    obtain ⟨path, hmem, part, hpart, htarget⟩ := (mem_flatten_of_mapM hparts).mp htarget
    obtain ⟨hname, hheads⟩ := hother path hmem
    rcases unitTargets_unit hpart htarget with hplain | ⟨head, hhead, hinstance⟩
    · exact absurd (hplain.symm.trans hunit) hname
    · have hsame : instanceUnit head target.channel = instanceUnit template.head inst.name :=
        hinstance.symm.trans hunit
      exact (instanceUnit_inj (hheads head hhead) template.head_no_at hsame).2
  have hcolon : ':' ∉ template.head ∧ ':' ∉ inst.name ↔ ':' ∉ inst.unit := by
    rw [inst.colon_mem_unit, not_or]
  refine ⟨hregistered, ?_⟩
  rw [hcolon]
  constructor
  · intro hfinds
    rw [← hfinds.1]
    exact unitFromCgroupText_no_colon _
  · intro hplain
    have hunit := inst.unitFromCgroupText_line hplain hslices heol
    refine ⟨hunit, fun dstIp dstPort => ?_⟩
    dsimp only
    rw [hunit, ChannelCatalog.matchFlow_target, ne_eq, ChannelCatalog.matchFlow_status_unknown,
      ChannelCatalog.byUnit_ofTargets]
    cases hfind : parts.flatten.reverse.find? (fun target => target.unit = inst.unit) with
    | none =>
      obtain ⟨target, htarget, htargetUnit, _⟩ := hregistered
      have hnone := List.find?_eq_none.mp hfind target (List.mem_reverse.mpr htarget)
      simp [htargetUnit] at hnone
    | some target =>
      have hmem : target ∈ parts.flatten := List.mem_reverse.mp (List.mem_of_find?_eq_some hfind)
      have htargetUnit : target.unit = inst.unit := by simpa using List.find?_some hfind
      exact ⟨nofun, target, rfl, htargetUnit, hchannel target hmem htargetUnit⟩

/-! A recorder template with one instance, beside a unit that has the name of what follows
the colon in the name of another instance. -/

def recorderDirectory : PosixPath := .parse "/etc/ffmpeg-rec".toList

def recorderFiles (instanceName : String) : FileSystem where
  bytes path :=
    if path = userUnit "ffmpeg@.service" then
      some (asciiBytes "[Service]\nEnvironmentFile=/etc/ffmpeg-rec/%i.env\n".toList)
    else if path = recorderDirectory.child (instanceName.toList ++ ".env".toList) then
      some (asciiBytes "INPUT_URL=http://radio.example/a\n".toList)
    else if path = userUnit "b.service" then
      some (asciiBytes "[Service]\nEnvironment=URL=http://other.example/b\n".toList)
    else none
  isDir path := some (path = recorderDirectory)
  names path :=
    if path = recorderDirectory then some [instanceName.toList ++ ".env".toList] else none

def recorderTemplate : EnvTemplate (recorderFiles "radio-1") where
  head := "ffmpeg".toList
  head_chars := forall_mem_of_all (by decide +kernel)
  head_ne_user := by decide +kernel
  path := userUnit "ffmpeg@.service"
  path_name := by decide +kernel
  text := "[Service]\nEnvironmentFile=/etc/ffmpeg-rec/%i.env\n".toList
  readText_path := by decide +kernel
  spec := "/etc/ffmpeg-rec/%i.env".toList
  spec_mem := by decide +kernel
  percentI_spec := by decide +kernel
  directory := recorderDirectory
  directory_plain := by decide +kernel
  spec_path := by decide +kernel

def recorderInstance : EnvInstance recorderTemplate where
  name := "radio-1".toList
  name_ne := by decide +kernel
  name_chars := forall_mem_of_all (by decide +kernel)
  isDir_directory := by decide +kernel
  entries := ["radio-1.env".toList]
  names_directory := by decide +kernel
  mem_entries := by decide +kernel
  url := "http://radio.example/a".toList
  only_url := by
    have hurls : envFileUrls (recorderFiles "radio-1")
        (recorderDirectory.child ("radio-1".toList ++ ".env".toList)) =
        ["http://radio.example/a".toList] := by decide +kernel
    intro other
    show other ∈ envFileUrls (recorderFiles "radio-1")
      (recorderDirectory.child ("radio-1".toList ++ ".env".toList)) ↔ _
    rw [hurls, List.mem_singleton]

def recorderTarget (instanceName : String) : ChannelTarget where
  channel := instanceName.toList
  unit := instanceUnit "ffmpeg".toList instanceName.toList
  url := "http://radio.example/a".toList
  scheme := "http".toList
  host := "radio.example".toList
  port := 80
  path := "/a".toList

theorem finds_instance_recorder :
    FindsInstance [recorderTarget "radio-1"] "ffmpeg@radio-1.service".toList "radio-1".toList
      "0::/user.slice/app.slice/ffmpeg@radio-1.service\n".toList := by
  have hload : loadChannelTargets .ascii (recorderFiles "radio-1") [userUnit "ffmpeg@.service"] =
      .ok [recorderTarget "radio-1"] := by decide +kernel
  have hother : ∀ path ∈ [userUnit "ffmpeg@.service"], path.name ≠ recorderInstance.unit ∧
      ∀ head, path.name = head ++ templateSuffix → '@' ∉ head := by
    intro path hpath
    rcases List.mem_singleton.mp hpath with rfl
    refine ⟨by decide +kernel, fun head hhead => ?_⟩
    have hsame : "ffmpeg".toList ++ templateSuffix = head ++ templateSuffix := hhead
    rw [← List.append_cancel_right hsame]
    decide +kernel
  have hiff := finds_instance_iff .ascii _ recorderTemplate recorderInstance _ _ hload
    List.mem_cons_self hother "/user.slice/app.slice".toList ['\n']
    (forall_mem_of_all (by decide +kernel)) (.inr rfl)
  exact hiff.2.mpr (by decide +kernel)

def otherTarget : ChannelTarget where
  channel := "b".toList
  unit := "b.service".toList
  url := "http://other.example/b".toList
  scheme := "http".toList
  host := "other.example".toList
  port := 80
  path := "/b".toList

/-- The processes of `ffmpeg@a:b.service` are taken for those of `b.service`. -/
theorem colon_finds_other_unit :
    loadChannelTargets .ascii (recorderFiles "a:b")
        [userUnit "ffmpeg@.service", userUnit "b.service"] =
      .ok [recorderTarget "a:b", otherTarget] ∧
    ¬ FindsInstance [recorderTarget "a:b", otherTarget] "ffmpeg@a:b.service".toList "a:b".toList
      "0::/user.slice/app.slice/ffmpeg@a:b.service\n".toList := by
  refine ⟨by decide +kernel, fun hfinds => ?_⟩
  have hunit : unitFromCgroupText "0::/user.slice/app.slice/ffmpeg@a:b.service\n".toList =
      "b.service".toList := by decide +kernel
  have hwrong : "b.service".toList = "ffmpeg@a:b.service".toList := hunit.symm.trans hfinds.1
  exact absurd hwrong (by decide +kernel)

end UdpAnalyzer
