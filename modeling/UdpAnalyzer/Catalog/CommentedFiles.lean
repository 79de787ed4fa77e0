import UdpAnalyzer.Catalog.Comments

/-! Comments in the files of a catalog: which kinds of them change nothing that is read off a
unit file or an environment file, wherever in it they are, and that the targets are then those
of the files without them. -/

namespace UdpAnalyzer

/-! ### Environment files -/

/-- What is read off a text as an environment file. -/
def SameEnvReading (text text' : Str) : Prop :=
  ∀ url, url ∈ urlsOfEnvText text ↔ url ∈ urlsOfEnvText text'

/-- Where comments of a kind are read as comments in an environment file. -/
def EnvSpares (kind : CommentKind) : Prop := kind.marker = .hash ∧ kind.broken = false

theorem sameEnvReading_of_spares {kind : CommentKind} {front back comment : Str}
    (hfront : EndsLine front) (hcomment : IsComment kind comment) (h : EnvSpares kind) :
    SameEnvReading (front ++ back) (insertComment front comment back) := by
  have hsilent : urlsOfEnvLine comment = [] := by
    have hhead : (lstrip comment).head? = some '#' := by
      obtain ⟨blanks, content, rfl, hblanks⟩ := hcomment.marked
      rw [h.1]
      apply head?_lstrip_marker _ .hash
      intro c hc
      rcases hblanks c hc with rfl | rfl | rfl <;> rfl
    unfold urlsOfEnvLine
    dsimp only
    rw [if_pos (.inr (head?_strip hhead))]
  intro url
  unfold urlsOfEnvText
  rw [splitLines_append hfront, splitLines_insertComment hfront (hcomment.unbroken h.2),
    List.flatMap_append, List.flatMap_append, List.flatMap_cons, hsilent, List.nil_append]

/-- Otherwise a comment shows its URL. -/
theorem freshUrl_mem_insertEnvSample {kind : CommentKind} {front : Str} (hfront : EndsLine front)
    (h : ¬ EnvSpares kind) (n : ℕ) (back : Str) :
    freshUrl n ∈ urlsOfEnvText (insertComment front (sampleComment kind n) back) := by
  have hafter : AfterWord (sampleEnd kind.ending) := by
    cases kind.ending with
    | true => exact .inr ⟨['\\'], rfl⟩
    | false => exact .inl rfl
  have hline : freshUrl n ∈
      urlsOfEnvLine (';' :: ' ' :: (freshWord n ++ sampleEnd kind.ending)) :=
    @freshUrl_mem_envLine n [';'] _ ';' hafter rfl (by decide)
  have hshown : ';' :: ' ' :: (freshWord n ++ sampleEnd kind.ending) ∈ sampleLines kind n := by
    unfold sampleLines
    by_cases hbroken : kind.broken = true
    · rw [if_pos hbroken]
      exact List.mem_cons_of_mem _ (List.mem_singleton_self _)
    · have hmarker : kind.marker = .semicolon := by
        cases hkind : kind.marker with
        | hash => exact absurd ⟨hkind, Bool.eq_false_iff.mpr hbroken⟩ h
        | semicolon => rfl
      rw [if_neg hbroken, hmarker]
      exact List.mem_singleton_self _
  unfold urlsOfEnvText
  rw [splitLines_insertSample kind n hfront]
  refine List.mem_map.mpr ⟨freshUrl n, ?_, cleanupUrl_freshUrl n⟩
  refine List.mem_flatMap.mpr ⟨_, ?_, hline⟩
  exact List.mem_append_right _ (List.mem_append_left _ hshown)

theorem envSpares_of_sameReading {kind : CommentKind} {front back : Str} (hfront : EndsLine front)
    (h : ∀ comment, IsComment kind comment →
      SameEnvReading (front ++ back) (insertComment front comment back)) : EnvSpares kind := by
  by_contra hkind
  obtain ⟨n, hfresh⟩ := exists_fresh (urlsOfEnvText (front ++ back))
  exact hfresh ((h _ (isComment_sample kind n) _).mpr
    (freshUrl_mem_insertEnvSample hfront hkind n back))

/-! ### The files of a catalog -/

/-- The machine after a file is written. -/
def FileSystem.write (fs : FileSystem) (file : PosixPath) (bytes : List UInt8) : FileSystem :=
  { fs with bytes := fun path => if path = file then some bytes else fs.bytes path }

/-- The same is read off a file before and after it is written, as a unit file and as an
environment file. -/
structure SameFile (fs : FileSystem) (file : PosixPath) (bytes : List UInt8) (text text' : Str) :
    Prop where
  before : fs.readText file = .ok text
  after : (fs.write file bytes).readText file = .ok text'
  reading : SameReading text text'
  envReading : SameEnvReading text text'

section

variable {fs : FileSystem} {file : PosixPath} {bytes : List UInt8}

theorem readText_write {path : PosixPath} (h : path ≠ file) :
    (fs.write file bytes).readText path = fs.readText path := by
  unfold FileSystem.readText FileSystem.write
  dsimp only
  rw [if_neg h]

theorem readTextOr_write {α : Type} {path : PosixPath} (h : path ≠ file) (missing : α)
    (f : Str → Except PyExc α) :
    readTextOr (fs.write file bytes) path missing f = readTextOr fs path missing f := by
  unfold readTextOr
  rw [readText_write h]

variable {text text' : Str} (hsame : SameFile fs file bytes text text')
include hsame

theorem SameFile.decodable (path : PosixPath) :
    Decodable fs path ↔ Decodable (fs.write file bytes) path := by
  rw [decodable_iff, decodable_iff]
  by_cases h : path = file
  · rw [h, hsame.before, hsame.after]
    exact ⟨fun _ => .inr ⟨_, rfl⟩, fun _ => .inr ⟨_, rfl⟩⟩
  · rw [readText_write h]

theorem SameFile.mem_envFileUrls (path : PosixPath) (url : Str) :
    url ∈ envFileUrls fs path ↔ url ∈ envFileUrls (fs.write file bytes) path := by
  unfold envFileUrls
  by_cases h : path = file
  · rw [h, hsame.before, hsame.after]
    exact hsame.envReading url
  · rw [readText_write h]

theorem SameFile.instanceTarget_eq (u : Unicode) (head fhead ftail : Str) (path : PosixPath) :
    instanceTarget u (fs.write file bytes) head fhead ftail path =
      instanceTarget u fs head fhead ftail path := by
  unfold instanceTarget
  dsimp only
  split_ifs
  · rfl
  · by_cases h : path = file
    · have hurls := sortedSet_congr (hsame.mem_envFileUrls path)
      have hbefore : urlsFromEnvFile fs path = .ok (envFileUrls fs path) := by
        rw [urlsFromEnvFile_eq_ok, decodable_iff, h]
        exact ⟨.inr ⟨_, hsame.before⟩, rfl⟩
      have hafter : urlsFromEnvFile (fs.write file bytes) path =
          .ok (envFileUrls (fs.write file bytes) path) := by
        rw [urlsFromEnvFile_eq_ok, decodable_iff, h]
        exact ⟨.inr ⟨_, hsame.after⟩, rfl⟩
      rw [hbefore, hafter, ok_bind, ok_bind, hurls]
    · unfold urlsFromEnvFile
      rw [readTextOr_write h]

theorem SameFile.patternTargets_eq (u : Unicode) (path : PosixPath) (head spec : Str) :
    patternTargets u (fs.write file bytes) path head spec = patternTargets u fs path head spec := by
  have hinstance : ∀ fhead ftail, instanceTarget u (fs.write file bytes) head fhead ftail =
      instanceTarget u fs head fhead ftail :=
    fun fhead ftail => funext (hsame.instanceTarget_eq u head fhead ftail)
  unfold patternTargets
  simp only [hinstance]
  rfl

omit hsame in
theorem mem_environmentFilePaths {unit unit' : Str} (hunit : SameReading unit unit')
    (path envPath : PosixPath) :
    envPath ∈ environmentFilePaths fs (joinSystemdContinuations unit) path ↔
      envPath ∈ environmentFilePaths (fs.write file bytes) (joinSystemdContinuations unit') path := by
  unfold environmentFilePaths
  simp only [List.mem_map, List.mem_filter, hunit.specs]
  rfl

/-- A plain unit is the same, whether its own text was written or one of its environment
files. -/
theorem SameFile.plainUnitTargets (u : Unicode) (path : PosixPath) {unit unit' : Str}
    (hunit : SameReading unit unit') :
    SameElements (plainUnitTargets u fs path unit)
      (plainUnitTargets u (fs.write file bytes) path unit') := by
  have hpaths := @mem_environmentFilePaths fs file bytes unit unit' hunit path
  have hurls : ∀ url,
      url ∈ extractUrlsFromUnit unit ++ ((environmentFilePaths fs
        (joinSystemdContinuations unit) path).map (envFileUrls fs)).flatten ↔
      url ∈ extractUrlsFromUnit unit' ++ ((environmentFilePaths (fs.write file bytes)
        (joinSystemdContinuations unit') path).map (envFileUrls (fs.write file bytes))).flatten := by
    intro url
    rw [List.mem_append, List.mem_append, hunit.urls, ← List.flatMap_def, ← List.flatMap_def,
      List.mem_flatMap, List.mem_flatMap]
    simp only [hpaths, hsame.mem_envFileUrls]
  by_cases hdecodable : ∀ envPath ∈ environmentFilePaths fs (joinSystemdContinuations unit) path,
      Decodable fs envPath
  · have hdecodable' : ∀ envPath ∈ environmentFilePaths (fs.write file bytes)
        (joinSystemdContinuations unit') path, Decodable (fs.write file bytes) envPath :=
      fun envPath hmem => (hsame.decodable envPath).mp (hdecodable envPath ((hpaths envPath).mpr hmem))
    have heq : UdpAnalyzer.plainUnitTargets u fs path unit =
        UdpAnalyzer.plainUnitTargets u (fs.write file bytes) path unit' := by
      unfold UdpAnalyzer.plainUnitTargets
      rw [mapM_urlsFromEnvFile.mpr ⟨hdecodable, rfl⟩, mapM_urlsFromEnvFile.mpr ⟨hdecodable', rfl⟩,
        ok_bind, ok_bind, sortedSet_congr hurls]
    rw [heq]
    exact sameElements_refl _
  · have hnot : ¬ Returns (UdpAnalyzer.plainUnitTargets u fs path unit) := fun h =>
      hdecodable (returns_plainUnitTargets.mp h).1
    have hnot' : ¬ Returns (UdpAnalyzer.plainUnitTargets u (fs.write file bytes) path unit') := fun h =>
      hdecodable fun envPath hmem => (hsame.decodable envPath).mpr
        ((returns_plainUnitTargets.mp h).1 envPath ((hpaths envPath).mp hmem))
    exact ⟨iff_of_false hnot hnot', fun targets _ h _ => absurd ⟨targets, h⟩ hnot⟩

theorem SameFile.unitText (u : Unicode) (path : PosixPath) {unit unit' : Str}
    (hunit : SameReading unit unit') :
    SameElements
      (if templateSuffix.isSuffixOf path.name then
        templateInstanceTargets u fs path (joinSystemdContinuations unit)
      else UdpAnalyzer.plainUnitTargets u fs path unit)
      (if templateSuffix.isSuffixOf path.name then
        templateInstanceTargets u (fs.write file bytes) path (joinSystemdContinuations unit')
      else UdpAnalyzer.plainUnitTargets u (fs.write file bytes) path unit') := by
  split_ifs
  · apply sameElements_gather hunit.specs
    intro spec _
    rw [hsame.patternTargets_eq]
    exact sameElements_refl _
  · exact hsame.plainUnitTargets u path hunit

/-- What a path adds to the targets is the same. -/
theorem SameFile.unitTargets (u : Unicode) (path : PosixPath) :
    SameElements (unitTargets u fs path) (unitTargets u (fs.write file bytes) path) := by
  have hrefl : ∀ unit, SameReading unit unit := fun _ => ⟨fun _ => Iff.rfl, fun _ => Iff.rfl⟩
  unfold UdpAnalyzer.unitTargets readTextOr
  by_cases h : path = file
  · rw [h, hsame.before, hsame.after]
    exact hsame.unitText u file hsame.reading
  · rw [readText_write h]
    cases fs.readText path with
    | ok unit => exact hsame.unitText u path (hrefl unit)
    | error e => cases e <;> exact sameElements_refl _

/-- The targets are the same. -/
theorem SameFile.loadChannelTargets (u : Unicode) (paths : List PosixPath) :
    SameElements (loadChannelTargets u fs paths)
      (loadChannelTargets u (fs.write file bytes) paths) := by
  have hgather : ∀ (fs : FileSystem) targets,
      UdpAnalyzer.loadChannelTargets u fs paths = .ok targets ↔
        (do let parts ← paths.mapM (UdpAnalyzer.unitTargets u fs); return parts.flatten) =
          (.ok targets : Except PyExc (List ChannelTarget)) := by
    intro fs targets
    rw [loadChannelTargets_eq_ok]
    constructor
    · rintro ⟨parts, hparts, rfl⟩
      rw [hparts]
      rfl
    · intro h
      obtain ⟨parts, hparts, h⟩ := bind_eq_ok h
      exact ⟨parts, hparts, (Except.ok.inj h).symm⟩
  have hsame := @sameElements_gather _ _ _ (UdpAnalyzer.unitTargets u fs)
    (UdpAnalyzer.unitTargets u (fs.write file bytes)) paths paths (fun _ => Iff.rfl)
    fun path _ => hsame.unitTargets u path
  exact hsame.congr (hgather fs) (hgather _)

end

/-! ### Comments change nothing -/

/-- For every text and every place between two of its physical lines: comments of a kind
change neither the URLs nor the environment files of a unit exactly where they are read as
comments, and the URLs of an environment file exactly if they are of a kind that is read as a
comment there; and a file with a comment that is read as one both ways gives the same targets
as without it. -/
theorem comments_unread_iff {front : Str} (hfront : EndsLine front) (kind : CommentKind)
    (back : Str) :
    ((∀ comment, IsComment kind comment →
        SameReading (front ++ back) (insertComment front comment back)) ↔
      SparesComments kind front back) ∧
    ((∀ comment, IsComment kind comment →
        SameEnvReading (front ++ back) (insertComment front comment back)) ↔ EnvSpares kind) ∧
    (SparesComments kind front back → EnvSpares kind →
      ∀ comment, IsComment kind comment → ∀ (u : Unicode) (fs : FileSystem) (file : PosixPath)
        (bytes : List UInt8) (paths : List PosixPath), fs.readText file = .ok (front ++ back) →
        (fs.write file bytes).readText file = .ok (insertComment front comment back) →
        SameElements (loadChannelTargets u fs paths)
          (loadChannelTargets u (fs.write file bytes) paths)) := by
  refine ⟨⟨spares_of_sameReading hfront, fun h comment hcomment => ?_⟩,
    ⟨envSpares_of_sameReading hfront, fun h comment hcomment => ?_⟩, ?_⟩
  · exact sameReading_of_spares hfront hcomment h
  · exact sameEnvReading_of_spares hfront hcomment h
  · intro hunit henv comment hcomment u fs file bytes paths hbefore hafter
    have hsame : SameFile fs file bytes (front ++ back) (insertComment front comment back) :=
      ⟨hbefore, hafter, sameReading_of_spares hfront hcomment hunit,
        sameEnvReading_of_spares hfront hcomment henv⟩
    exact hsame.loadChannelTargets u paths

def serviceFront : Str := "[Service]\nExecStart=/bin/app \\\n".toList

def serviceBack : Str := "  http://radio.example/a\n".toList

def hashComments : CommentKind := ⟨.hash, false, false⟩

def oldUrlComment : Str := "# http://old.example/a".toList

theorem isComment_oldUrlComment : IsComment hashComments oldUrlComment where
  marked := ⟨[], _, rfl, fun c hc => absurd hc List.not_mem_nil⟩
  one_line := by decide
  ending_iff := by decide
  broken_iff := by
    have hunbroken : ∀ c ∈ oldUrlComment, isLineBreak c = false := forall_mem_of_all (by decide)
    refine ⟨nofun, fun h => ?_⟩
    obtain ⟨c, hc, hbreak⟩ := h
    exact absurd (hbreak.symm.trans (hunbroken c hc)) (by decide)

theorem comments_unread_iff_service :
    SameReading ("[Service]\n".toList ++ "ExecStart=/bin/app http://radio.example/a\n".toList)
      (insertComment "[Service]\n".toList oldUrlComment
        "ExecStart=/bin/app http://radio.example/a\n".toList) := by
  have hspares : SparesComments hashComments "[Service]\n".toList
      "ExecStart=/bin/app http://radio.example/a\n".toList :=
    ⟨rfl, .inl rfl, fun _ => ⟨rfl, nofun⟩, nofun⟩
  exact (comments_unread_iff (.inr rfl) hashComments _).1.mpr hspares _ isComment_oldUrlComment

/-! A URL that was commented out between the parts of a continued line. -/

def serviceTexts (text : Str) : FileSystem where
  bytes path := if path = userUnit "radio.service" then some (asciiBytes text) else none

theorem comment_joins_command :
    IsComment hashComments oldUrlComment ∧
      ¬ SameReading (serviceFront ++ serviceBack)
        (insertComment serviceFront oldUrlComment serviceBack) ∧
      (loadChannelTargets .ascii (serviceTexts (serviceFront ++ serviceBack))
        [userUnit "radio.service"]).toOption.map (List.map ChannelTarget.url) =
          some ["http://radio.example/a".toList] ∧
      loadChannelTargets .ascii
        (serviceTexts (insertComment serviceFront oldUrlComment serviceBack))
        [userUnit "radio.service"] = .ok [] := by
  refine ⟨isComment_oldUrlComment, fun hsame => ?_, by decide +kernel, by decide +kernel⟩
  have hleak := (hsame.urls "http://old.example/a".toList).mpr (by decide +kernel)
  exact absurd hleak (by decide +kernel)

end UdpAnalyzer
