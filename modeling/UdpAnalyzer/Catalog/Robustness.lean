import UdpAnalyzer.Catalog.Targets

/-! When the catalog can be loaded. A file that is no UTF-8, a pattern that cannot be
expanded or the only URL of a unit that cannot be taken apart raises through the whole
load; without any of them the targets are those of each path, one after the other. -/

namespace UdpAnalyzer

/-! ### URLs -/

/-- A text that starts with a scheme and `://`. -/
def UrlShaped (url : Str) : Prop :=
  ∃ scheme ∈ urlSchemes, ∃ rest, url = scheme ++ "://".toList ++ rest

theorem firstM_mem {α β : Type} {f : α → Option β} {l : List α} {b : β}
    (h : l.firstM f = some b) : ∃ a ∈ l, f a = some b := by
  induction l with
  | nil => cases h
  | cons a rest ih =>
    have h : (f a).or (rest.firstM f) = some b := by
      rw [← h]
      show _ = (f a <|> rest.firstM f)
      cases f a <;> rfl
    cases ha : f a with
    | some b' =>
      rw [ha] at h
      exact ⟨a, List.mem_cons_self, ha.trans h⟩
    | none =>
      rw [ha, Option.none_or] at h
      obtain ⟨a', hmem, ha'⟩ := ih h
      exact ⟨a', List.mem_cons_of_mem _ hmem, ha'⟩

theorem urlAt_shaped {text url : Str} (h : urlAt text = some url) : UrlShaped url := by
  obtain ⟨scheme, hscheme, hurl⟩ := firstM_mem h
  unfold urlWith at hurl
  dsimp only at hurl
  split_ifs at hurl
  exact ⟨scheme, hscheme, _, (Option.some.inj hurl).symm⟩

theorem mem_findUrls_shaped {text url : Str} (h : url ∈ findUrls text) : UrlShaped url := by
  suffices hfrom : ∀ skip, url ∈ findUrlsFrom skip text → UrlShaped url from hfrom 0 h
  clear h
  induction text with
  | nil => exact fun skip h => by cases skip <;> cases h
  | cons c rest ih =>
    intro skip h
    cases skip with
    | succ skip => exact ih skip h
    | zero =>
      rw [findUrlsFrom] at h
      split at h
      · next found hfound =>
        rcases List.mem_cons.mp h with rfl | hrest
        · exact urlAt_shaped hfound
        · exact ih _ hrest
      · exact ih 0 h

/-- Dropping from the end stops at a character that stays. -/
theorem rdropWhile_stops {α : Type} {p : α → Bool} {a : α} (ha : p a = false) (head rest : List α) :
    (head ++ [a] ++ rest).rdropWhile p = head ++ [a] ++ rest.rdropWhile p := by
  induction rest using List.reverseRecOn with
  | nil =>
    rw [List.append_nil, List.rdropWhile_nil, List.append_nil]
    exact List.rdropWhile_concat_neg _ _ _ (by rw [ha]; decide)
  | append_singleton rest c ih =>
    rw [← List.append_assoc]
    by_cases hc : p c = true
    · rw [List.rdropWhile_concat_pos _ _ _ hc, List.rdropWhile_concat_pos _ _ _ hc, ih]
    · rw [List.rdropWhile_concat_neg _ _ _ hc, List.rdropWhile_concat_neg _ _ _ hc,
        ← List.append_assoc]

theorem cleanupUrl_shaped {url : Str} (h : UrlShaped url) : UrlShaped (cleanupUrl url) := by
  obtain ⟨scheme, hscheme, rest, rfl⟩ := h
  refine ⟨scheme, hscheme, rest.rdropWhile (· ∈ [')', ',', ';', ']']), ?_⟩
  have hstops : (scheme ++ [':', '/'] ++ ['/'] ++ rest).rdropWhile (· ∈ [')', ',', ';', ']']) =
      scheme ++ [':', '/'] ++ ['/'] ++ rest.rdropWhile (· ∈ [')', ',', ';', ']']) :=
    rdropWhile_stops rfl (scheme ++ [':', '/']) rest
  rwa [List.append_assoc scheme] at hstops

/-- A URL a target can be made of: it can be split, has a host, and its port is a number of
at most 65535, which a URL of UDP or RTP has to have. -/
def UrlSound (u : Unicode) (url : Str) : Prop :=
  ∃ parsed, urlparse u url = some parsed ∧ (parsed.hostname u).getD [] ≠ [] ∧
    (parsed.portText ≠ [] → ParseResult.isPort parsed.portText = true) ∧
    (parsed.scheme = "udp".toList ∨ parsed.scheme = "rtp".toList → parsed.portText ≠ [])

/-- A text that is not printed on paper is dropped from a URL, but not from its scheme. -/
theorem splitScheme_shaped {url : Str} (h : UrlShaped url) :
    (splitScheme ((url.dropWhile (·.toNat ≤ 32)).filter fun c => c ∉ ['\t', '\r', '\n'])).1 ∈
      urlSchemes := by
  obtain ⟨scheme, hscheme, rest, rfl⟩ := h
  simp only [urlSchemes, List.mem_cons, List.not_mem_nil, or_false] at hscheme
  rcases hscheme with rfl | rfl | rfl | rfl
  · show "https".toList ∈ urlSchemes
    decide
  · show "http".toList ∈ urlSchemes
    decide
  · show "udp".toList ∈ urlSchemes
    decide
  · show "rtp".toList ∈ urlSchemes
    decide

theorem urlparse_scheme {u : Unicode} {url : Str} {parsed : ParseResult} (h : UrlShaped url)
    (hparsed : urlparse u url = some parsed) : parsed.scheme ∈ urlSchemes := by
  have hscheme := splitScheme_shaped h
  unfold urlparse at hparsed
  dsimp only at hparsed
  split_ifs at hparsed <;> rw [← Option.some.inj hparsed] <;> exact hscheme

theorem returns_channelTargetFromUrl {u : Unicode} {unit url : Str} (h : UrlShaped url) :
    Returns (channelTargetFromUrl u unit url) ↔ UrlSound u url := by
  unfold channelTargetFromUrl
  cases hparsed : urlparse u url with
  | none =>
    apply iff_of_false not_returns_error
    rintro ⟨parsed, hsome, _⟩
    rw [hparsed] at hsome
    cases hsome
  | some parsed =>
    have hscheme : ¬ parsed.scheme ∉ urlSchemes := fun hnot => hnot (urlparse_scheme h hparsed)
    have hsound : UrlSound u url ↔ (parsed.hostname u).getD [] ≠ [] ∧
        (parsed.portText ≠ [] → ParseResult.isPort parsed.portText = true) ∧
        (parsed.scheme = "udp".toList ∨ parsed.scheme = "rtp".toList → parsed.portText ≠ []) := by
      constructor
      · rintro ⟨parsed', hparsed', hrest⟩
        rw [hparsed] at hparsed'
        cases hparsed'
        exact hrest
      · exact fun hrest => ⟨parsed, hparsed, hrest⟩
    dsimp only
    rw [if_neg hscheme, hsound]
    split
    · next hnone => exact iff_of_false not_returns_error fun h => h.1 (by rw [hnone]; rfl)
    · next hempty => exact iff_of_false not_returns_error fun h => h.1 (by rw [hempty]; rfl)
    · next hostname hempty hhostname =>
      have hne : (parsed.hostname u).getD [] ≠ [] := by
        rw [hhostname]
        exact hempty
      rw [and_iff_right hne]
      unfold ParseResult.port
      by_cases htext : parsed.portText = []
      · rw [if_pos htext]
        dsimp only
        split
        · next hudp => exact iff_of_false not_returns_error fun h => h.2 hudp htext
        · next hudp =>
          exact ⟨fun _ => ⟨fun h => absurd htext h, fun h => absurd h hudp⟩, fun _ => ⟨_, rfl⟩⟩
      · rw [if_neg htext]
        by_cases hport : ParseResult.isPort parsed.portText = true
        · rw [if_pos hport]
          exact ⟨fun _ => ⟨fun _ => hport, fun _ => htext⟩, fun _ => ⟨_, rfl⟩⟩
        · rw [if_neg hport]
          exact iff_of_false not_returns_error fun h => hport (h.1 htext)

theorem mem_extractUrlsFromUnit_shaped {text url : Str} (h : url ∈ extractUrlsFromUnit text) :
    UrlShaped url := by
  obtain ⟨found, hfound, rfl⟩ := List.mem_map.mp h
  obtain ⟨line, _, hline⟩ := List.mem_flatMap.mp hfound
  apply cleanupUrl_shaped
  unfold urlsOfUnitLine at hline
  dsimp only at hline
  split_ifs at hline
  · cases hline
  · obtain ⟨part, _, hpart⟩ := List.mem_flatMap.mp hline
    exact mem_findUrls_shaped hpart
  · exact mem_findUrls_shaped hline

theorem mem_urlsOfEnvText_shaped {text url : Str} (h : url ∈ urlsOfEnvText text) :
    UrlShaped url := by
  obtain ⟨found, hfound, rfl⟩ := List.mem_map.mp h
  obtain ⟨line, _, hline⟩ := List.mem_flatMap.mp hfound
  apply cleanupUrl_shaped
  unfold urlsOfEnvLine at hline
  dsimp only at hline
  split_ifs at hline
  · cases hline
  · split at hline
    · cases hline
    · exact mem_findUrls_shaped hline

/-- The only one of some URLs, however often it occurs. -/
def OnlyUrl (urls : List Str) (url : Str) : Prop := ∀ other, other ∈ urls ↔ other = url

theorem sortedSet_eq_singleton {urls : List Str} {url : Str} :
    sortedSet urls = [url] ↔ OnlyUrl urls url := by
  constructor
  · intro h other
    rw [← mem_sortedSet, h, List.mem_singleton]
  · intro h
    have hsingle : sortedSet urls = sortedSet [url] := by
      apply sortedSet_congr
      intro other
      rw [List.mem_singleton]
      exact h other
    rw [hsingle]
    rfl

/-! ### Files -/

/-- A file that can be opened is UTF-8, and its path has no null character. -/
def Decodable (fs : FileSystem) (path : PosixPath) : Prop :=
  '\x00' ∉ path.toText ∧ ∀ bytes, fs.bytes path = some bytes → decodeUtf8 bytes ≠ none

theorem decodable_iff {fs : FileSystem} {path : PosixPath} :
    Decodable fs path ↔ fs.readText path = .error .os ∨ ∃ text, fs.readText path = .ok text := by
  unfold Decodable FileSystem.readText
  by_cases hnul : '\x00' ∈ path.toText
  · rw [if_pos hnul]
    exact ⟨fun h => absurd hnul h.1, fun h => by rcases h with h | ⟨_, h⟩ <;> cases h⟩
  · rw [if_neg hnul, and_iff_right hnul]
    cases fs.bytes path with
    | none => exact ⟨fun _ => .inl rfl, fun _ _ h => by cases h⟩
    | some bytes =>
      cases hdecode : decodeUtf8 bytes with
      | none =>
        refine ⟨fun h => absurd hdecode (h bytes rfl), fun h => ?_⟩
        rcases h with h | ⟨_, h⟩
        · simp only [hdecode] at h
          cases h
        · simp only [hdecode] at h
          cases h
      | some text =>
        refine ⟨fun _ => .inr ⟨universalNewlines text, ?_⟩, fun _ bytes' hbytes' => ?_⟩
        · simp only [hdecode]
        · cases hbytes'
          rw [hdecode]
          exact fun h => by cases h

theorem returns_readTextOr {α : Type} {fs : FileSystem} {path : PosixPath} {missing : α}
    {f : Str → Except PyExc α} :
    Returns (readTextOr fs path missing f) ↔
      Decodable fs path ∧ ∀ text, fs.readText path = .ok text → Returns (f text) := by
  rw [decodable_iff]
  unfold readTextOr
  cases hread : fs.readText path with
  | error e =>
    cases e with
    | os => exact ⟨fun _ => ⟨.inl rfl, fun _ h => by cases h⟩, fun _ => ⟨missing, rfl⟩⟩
    | unicode =>
      exact ⟨fun ⟨_, h⟩ => (by cases h), fun h => by rcases h.1 with h | ⟨_, h⟩ <;> cases h⟩
    | nul =>
      exact ⟨fun ⟨_, h⟩ => (by cases h), fun h => by rcases h.1 with h | ⟨_, h⟩ <;> cases h⟩
  | ok text =>
    refine ⟨fun h => ⟨.inr ⟨text, rfl⟩, fun text' h' => ?_⟩, fun h => h.2 text rfl⟩
    cases h'
    exact h

/-- The URLs of an environment file that can be read. -/
def envFileUrls (fs : FileSystem) (path : PosixPath) : List Str :=
  match fs.readText path with
  | .ok text => urlsOfEnvText text
  | .error _ => []

theorem urlsFromEnvFile_eq_ok {fs : FileSystem} {path : PosixPath} {urls : List Str} :
    urlsFromEnvFile fs path = .ok urls ↔ Decodable fs path ∧ urls = envFileUrls fs path := by
  rw [decodable_iff]
  unfold urlsFromEnvFile readTextOr envFileUrls
  cases fs.readText path with
  | error e =>
    cases e with
    | os => simp [eq_comm]
    | unicode => simp
    | nul => simp
  | ok text => simp [eq_comm]

/-! ### Units -/

/-- An environment file of a template makes no trouble: it is UTF-8, and its only URL, if
it has just one, is sound. -/
def InstanceSound (u : Unicode) (fs : FileSystem) (fhead ftail : Str) (envPath : PosixPath) : Prop :=
  instanceOf fhead ftail envPath.name ≠ [] →
    Decodable fs envPath ∧ ∀ url, OnlyUrl (envFileUrls fs envPath) url → UrlSound u url

/-- A pattern of a template can be expanded, and the files it finds make no trouble. -/
def PatternSound (u : Unicode) (fs : FileSystem) (templatePath : PosixPath) (spec : Str) : Prop :=
  percentI <:+: spec →
    let specPath := PosixPath.parse (expandHomeSpecifier fs spec templatePath)
    ∀ fhead ftail, patternParts specPath = some (fhead, ftail) →
      ∃ envPaths, fs.glob specPath.parent (fhead ++ '*' :: ftail) = .ok envPaths ∧
        ∀ envPath ∈ envPaths, InstanceSound u fs fhead ftail envPath

/-- The text of a unit file makes no trouble: its patterns do not, or its environment files
are UTF-8 and its only URL, if there is just one, is sound. -/
def UnitSound (u : Unicode) (fs : FileSystem) (path : PosixPath) (text : Str) : Prop :=
  let joined := joinSystemdContinuations text
  if templateSuffix.isSuffixOf path.name then
    ∀ spec ∈ environmentFileSpecs joined, PatternSound u fs path spec
  else
    (∀ envPath ∈ environmentFilePaths fs joined path, Decodable fs envPath) ∧
      ∀ url, OnlyUrl (extractUrlsFromUnit text ++
        (environmentFilePaths fs joined path).flatMap (envFileUrls fs)) url → UrlSound u url

/-- A path the catalog can be loaded from. -/
def PathSound (u : Unicode) (fs : FileSystem) (path : PosixPath) : Prop :=
  Decodable fs path ∧ ∀ text, fs.readText path = .ok text → UnitSound u fs path text

/-- The one place where a URL becomes a target. -/
theorem returns_onlyUrl {α : Type} {u : Unicode} {unit : Str} {urls : List Str} {none' : α}
    {f : ChannelTarget → α} (hshaped : ∀ url ∈ urls, UrlShaped url) :
    Returns (match sortedSet urls with
      | [url] => do
        let target ← channelTargetFromUrl u unit url
        return f target
      | _ => (.ok none' : Except PyExc α)) ↔ ∀ url, OnlyUrl urls url → UrlSound u url := by
  split
  · next url hurl =>
    have honly : OnlyUrl urls url := sortedSet_eq_singleton.mp hurl
    rw [returns_bind_pure, returns_channelTargetFromUrl (hshaped url ((honly url).mpr rfl))]
    refine ⟨fun h url' hurl' => ?_, fun h => h url honly⟩
    have hsame : url = url' := (hurl' url).mp ((honly url).mpr rfl)
    rwa [← hsame]
  · next hmany =>
    refine ⟨fun _ url hurl => ?_, fun _ => ⟨none', rfl⟩⟩
    exact absurd (sortedSet_eq_singleton.mpr hurl) (hmany url)

theorem mem_envFileUrls_shaped {fs : FileSystem} {path : PosixPath} {url : Str}
    (h : url ∈ envFileUrls fs path) : UrlShaped url := by
  unfold envFileUrls at h
  split at h
  · exact mem_urlsOfEnvText_shaped h
  · cases h

theorem returns_instanceTarget {u : Unicode} {fs : FileSystem} {head fhead ftail : Str}
    {envPath : PosixPath} :
    Returns (instanceTarget u fs head fhead ftail envPath) ↔
      InstanceSound u fs fhead ftail envPath := by
  unfold instanceTarget InstanceSound
  dsimp only
  split_ifs with hinstance
  · exact ⟨fun _ h => absurd hinstance h, fun _ => ⟨[], rfl⟩⟩
  · rw [returns_bind]
    constructor
    · rintro ⟨urls, hurls, hreturns⟩ _
      obtain ⟨hdecodable, rfl⟩ := urlsFromEnvFile_eq_ok.mp hurls
      exact ⟨hdecodable, (returns_onlyUrl fun _ => mem_envFileUrls_shaped).mp hreturns⟩
    · intro h
      obtain ⟨hdecodable, hsound⟩ := h hinstance
      exact ⟨_, urlsFromEnvFile_eq_ok.mpr ⟨hdecodable, rfl⟩,
        (returns_onlyUrl fun _ => mem_envFileUrls_shaped).mpr hsound⟩

theorem returns_patternTargets {u : Unicode} {fs : FileSystem} {templatePath : PosixPath}
    {head spec : Str} :
    Returns (patternTargets u fs templatePath head spec) ↔ PatternSound u fs templatePath spec := by
  unfold patternTargets PatternSound
  split_ifs with hpercent
  · dsimp only
    cases hparts : patternParts (PosixPath.parse (expandHomeSpecifier fs spec templatePath)) with
    | none => exact ⟨fun _ _ _ _ h => (by cases h), fun _ => ⟨[], rfl⟩⟩
    | some parts =>
      obtain ⟨fhead, ftail⟩ := parts
      dsimp only
      cases hglob : fs.glob (PosixPath.parse (expandHomeSpecifier fs spec templatePath)).parent
          (fhead ++ '*' :: ftail) with
      | error e =>
        constructor
        · rintro ⟨_, h⟩
          cases e <;> cases h
        · intro h
          obtain ⟨envPaths, henv, _⟩ := h hpercent fhead ftail rfl
          rw [hglob] at henv
          cases henv
      | ok envPaths =>
        dsimp only
        rw [returns_bind_pure, returns_mapM]
        constructor
        · rintro h _ _ _ hsame
          cases hsame
          refine ⟨envPaths, hglob, fun envPath hmem => ?_⟩
          exact returns_instanceTarget.mp (h envPath (mem_sortedPaths.mpr hmem))
        · intro h envPath hmem
          obtain ⟨envPaths', henv, hsound⟩ := h hpercent fhead ftail rfl
          rw [hglob] at henv
          cases henv
          exact returns_instanceTarget.mpr (hsound envPath (mem_sortedPaths.mp hmem))
  · exact ⟨fun _ h => absurd h hpercent, fun _ => ⟨[], rfl⟩⟩

theorem mapM_urlsFromEnvFile {fs : FileSystem} {paths : List PosixPath} {urls : List (List Str)} :
    paths.mapM (urlsFromEnvFile fs) = .ok urls ↔
      (∀ path ∈ paths, Decodable fs path) ∧ urls = paths.map (envFileUrls fs) := by
  induction paths generalizing urls with
  | nil =>
    rw [List.mapM_nil]
    exact ⟨fun h => ⟨fun _ h => absurd h List.not_mem_nil, (Except.ok.inj h).symm⟩,
      fun h => h.2 ▸ rfl⟩
  | cons path rest ih =>
    rw [mapM_cons_eq_ok, List.forall_mem_cons, List.map_cons]
    constructor
    · rintro ⟨first, others, hfirst, hothers, rfl⟩
      obtain ⟨hdecodable, rfl⟩ := urlsFromEnvFile_eq_ok.mp hfirst
      obtain ⟨hrest, rfl⟩ := ih.mp hothers
      exact ⟨⟨hdecodable, hrest⟩, rfl⟩
    · rintro ⟨⟨hdecodable, hrest⟩, rfl⟩
      exact ⟨_, _, urlsFromEnvFile_eq_ok.mpr ⟨hdecodable, rfl⟩, ih.mpr ⟨hrest, rfl⟩, rfl⟩

theorem returns_plainUnitTargets {u : Unicode} {fs : FileSystem} {path : PosixPath} {text : Str} :
    Returns (plainUnitTargets u fs path text) ↔
      (∀ envPath ∈ environmentFilePaths fs (joinSystemdContinuations text) path,
        Decodable fs envPath) ∧
      ∀ url, OnlyUrl (extractUrlsFromUnit text ++
        (environmentFilePaths fs (joinSystemdContinuations text) path).flatMap (envFileUrls fs))
          url → UrlSound u url := by
  have hshaped : ∀ url ∈ extractUrlsFromUnit text ++
      (environmentFilePaths fs (joinSystemdContinuations text) path).flatMap (envFileUrls fs),
      UrlShaped url := by
    intro url hurl
    rcases List.mem_append.mp hurl with hurl | hurl
    · exact mem_extractUrlsFromUnit_shaped hurl
    · obtain ⟨envPath, _, henv⟩ := List.mem_flatMap.mp hurl
      exact mem_envFileUrls_shaped henv
  unfold plainUnitTargets
  rw [returns_bind]
  constructor
  · rintro ⟨urls, hurls, hreturns⟩
    obtain ⟨hdecodable, rfl⟩ := mapM_urlsFromEnvFile.mp hurls
    exact ⟨hdecodable, (returns_onlyUrl hshaped).mp hreturns⟩
  · rintro ⟨hdecodable, hsound⟩
    exact ⟨_, mapM_urlsFromEnvFile.mpr ⟨hdecodable, rfl⟩, (returns_onlyUrl hshaped).mpr hsound⟩

/-- What one path adds to the targets is found without raising exactly when the path is
sound. -/
theorem returns_unitTargets {u : Unicode} {fs : FileSystem} {path : PosixPath} :
    Returns (unitTargets u fs path) ↔ PathSound u fs path := by
  unfold unitTargets PathSound
  rw [returns_readTextOr]
  apply and_congr_right
  intro _
  apply forall_congr'
  intro text
  apply imp_congr_right
  intro _
  unfold UnitSound
  dsimp only
  split_ifs with htemplate
  · unfold templateInstanceTargets
    dsimp only
    rw [returns_bind_pure, returns_mapM]
    exact forall_congr' fun spec => imp_congr_right fun _ => returns_patternTargets
  · exact returns_plainUnitTargets

/-! ### The whole load -/

theorem loadChannelTargets_eq_ok {u : Unicode} {fs : FileSystem} {paths : List PosixPath}
    {targets : List ChannelTarget} :
    loadChannelTargets u fs paths = .ok targets ↔
      ∃ parts, paths.mapM (unitTargets u fs) = .ok parts ∧ targets = parts.flatten := by
  suffices h : ∀ before : List ChannelTarget,
      paths.foldlM (fun targets path => return targets ++ (← unitTargets u fs path)) before =
        .ok targets ↔
      ∃ parts, paths.mapM (unitTargets u fs) = .ok parts ∧ targets = before ++ parts.flatten from
    h []
  induction paths with
  | nil =>
    intro before
    rw [List.foldlM_nil, List.mapM_nil]
    constructor
    · intro h
      exact ⟨[], rfl, by rw [← Except.ok.inj h, List.flatten_nil, List.append_nil]⟩
    · rintro ⟨parts, hparts, rfl⟩
      rw [← Except.ok.inj hparts, List.flatten_nil, List.append_nil]
      rfl
  | cons path rest ih =>
    intro before
    rw [List.foldlM_cons]
    constructor
    · intro h
      obtain ⟨next, hnext, hrest⟩ := bind_eq_ok h
      obtain ⟨part, hpart, hconcat⟩ := bind_eq_ok hnext
      cases hconcat
      obtain ⟨parts, hparts, rfl⟩ := (ih _).mp hrest
      refine ⟨part :: parts, mapM_cons_eq_ok.mpr ⟨part, parts, hpart, hparts, rfl⟩, ?_⟩
      rw [List.flatten_cons, List.append_assoc]
    · rintro ⟨parts, hparts, rfl⟩
      obtain ⟨part, parts', hpart, hrest, rfl⟩ := mapM_cons_eq_ok.mp hparts
      rw [hpart, ok_bind]
      apply (ih (before ++ part)).mpr
      exact ⟨parts', hrest, by rw [List.flatten_cons, List.append_assoc]⟩

/-- Loading one path. -/
theorem loadChannelTargets_singleton {u : Unicode} {fs : FileSystem} {path : PosixPath}
    {targets : List ChannelTarget} :
    loadChannelTargets u fs [path] = .ok targets ↔ unitTargets u fs path = .ok targets := by
  rw [loadChannelTargets_eq_ok]
  constructor
  · rintro ⟨parts, hparts, rfl⟩
    obtain ⟨part, parts', hpart, hrest, rfl⟩ := mapM_cons_eq_ok.mp hparts
    cases hrest
    rw [hpart]
    simp
  · intro h
    exact ⟨[targets], mapM_cons_eq_ok.mpr ⟨targets, [], h, rfl, rfl⟩, by simp⟩

/-- The catalog loads, and what it loads is what each path gives alone, in order. -/
def LoadsEachAlone (u : Unicode) (fs : FileSystem) (paths : List PosixPath) : Prop :=
  ∃ parts, List.Forall₂ (fun path part => loadChannelTargets u fs [path] = .ok part) paths parts ∧
    loadChannelTargets u fs paths = .ok parts.flatten

/-- For every list of unit paths and every content of the files: the load succeeds, path by
path, exactly when every path is sound. -/
theorem loads_each_alone_iff (u : Unicode) (fs : FileSystem) (paths : List PosixPath) :
    LoadsEachAlone u fs paths ↔ ∀ path ∈ paths, PathSound u fs path := by
  have hsound : (∀ path ∈ paths, PathSound u fs path) ↔ Returns (paths.mapM (unitTargets u fs)) := by
    rw [returns_mapM]
    exact forall_congr' fun path => imp_congr_right fun _ => returns_unitTargets.symm
  rw [hsound]
  constructor
  · rintro ⟨_, _, hload⟩
    obtain ⟨parts, hparts, _⟩ := loadChannelTargets_eq_ok.mp hload
    exact ⟨parts, hparts⟩
  · rintro ⟨parts, hparts⟩
    refine ⟨parts, ?_, loadChannelTargets_eq_ok.mpr ⟨parts, hparts, rfl⟩⟩
    exact (mapM_eq_ok_iff.mp hparts).imp fun _ _ h => loadChannelTargets_singleton.mpr h

/-! A channel beside a foreign unit whose URL has a placeholder for its port. -/

/-- The Unicode tables, as far as ASCII goes. -/
def Unicode.ascii : Unicode := ⟨id, List.map Char.toLower⟩

def userUnit (name : String) : PosixPath :=
  .parse ("/etc/systemd/user/".toList ++ name.toList)

def foreignUnitFiles : FileSystem where
  bytes path :=
    if path = userUnit "radio.service" then
      some (asciiBytes "[Service]\nEnvironment=URL=http://radio.example/a\n".toList)
    else if path = userUnit "foreign.service" then
      some (asciiBytes "[Service]\nExecStart=/bin/get http://host:$\x7bPORT\x7d/\n".toList)
    else none

theorem foreign_unit_breaks_load :
    ¬ LoadsEachAlone .ascii foreignUnitFiles [userUnit "radio.service", userUnit "foreign.service"] := by
  rintro ⟨parts, _, hload⟩
  have hraises : loadChannelTargets .ascii foreignUnitFiles
      [userUnit "radio.service", userUnit "foreign.service"] = .error .valueError := by
    decide +kernel
  rw [hraises] at hload
  cases hload

end UdpAnalyzer
