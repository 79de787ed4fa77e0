import UdpAnalyzer.Catalog.Robustness

/-! What a load registers: the unit and the channel of the targets of a path. A plain unit
gives at most one target, under its own name; the targets of a template are named after
the template and the instance. -/

namespace UdpAnalyzer

/-- A target is of the unit and the URL it is made from. -/
theorem channelTargetFromUrl_eq_ok {u : Unicode} {unit url : Str} {target : ChannelTarget}
    (h : channelTargetFromUrl u unit url = .ok target) : target.unit = unit ∧ target.url = url := by
  unfold channelTargetFromUrl at h
  cases hparsed : urlparse u url with
  | none =>
    rw [hparsed] at h
    cases h
  | some parsed =>
    rw [hparsed] at h
    dsimp only at h
    by_cases hscheme : parsed.scheme ∉ urlSchemes
    · rw [if_pos hscheme] at h
      cases h
    · rw [if_neg hscheme] at h
      split at h
      · cases h
      · cases h
      · split at h
        · cases h
        · cases h
          exact ⟨rfl, rfl⟩
        · split at h
          · cases h
          · cases h
            exact ⟨rfl, rfl⟩

/-- The one place where a URL becomes a target, as it returns. -/
theorem onlyUrl_eq_ok {u : Unicode} {unit : Str} {urls : List Str}
    {f : ChannelTarget → ChannelTarget} {targets : List ChannelTarget}
    (h : (match sortedSet urls with
      | [url] => do
        let target ← channelTargetFromUrl u unit url
        return [f target]
      | _ => (.ok [] : Except PyExc (List ChannelTarget))) = .ok targets) :
    (∀ target ∈ targets, ∃ made, made.unit = unit ∧ target = f made) ∧
      ∀ url, OnlyUrl urls url → ∃ made, made.unit = unit ∧ made.url = url ∧ targets = [f made] := by
  split at h
  · next url hurl =>
    obtain ⟨made, hmade, h⟩ := bind_eq_ok h
    cases h
    obtain ⟨hunit, hmadeUrl⟩ := channelTargetFromUrl_eq_ok hmade
    refine ⟨fun target htarget => ?_, fun url' hurl' => ?_⟩
    · exact ⟨made, hunit, List.mem_singleton.mp htarget⟩
    · have hsame : url = url' :=
        (hurl' url).mp ((sortedSet_eq_singleton.mp hurl url).mpr rfl)
      exact ⟨made, hunit, hmadeUrl.trans hsame, rfl⟩
  · next hmany =>
    cases h
    refine ⟨fun _ htarget => absurd htarget List.not_mem_nil, fun url hurl => ?_⟩
    exact absurd (sortedSet_eq_singleton.mpr hurl) (hmany url)

theorem instanceTarget_eq_ok {u : Unicode} {fs : FileSystem} {head fhead ftail : Str}
    {envPath : PosixPath} {targets : List ChannelTarget}
    (h : instanceTarget u fs head fhead ftail envPath = .ok targets) :
    (∀ target ∈ targets, target.unit = instanceUnit head target.channel ∧
      target.channel = instanceOf fhead ftail envPath.name) ∧
    (instanceOf fhead ftail envPath.name ≠ [] →
      ∀ url, OnlyUrl (envFileUrls fs envPath) url → targets ≠ []) := by
  unfold instanceTarget at h
  dsimp only at h
  split_ifs at h with hempty
  · cases h
    exact ⟨fun _ htarget => absurd htarget List.not_mem_nil, fun hne => absurd hempty hne⟩
  · obtain ⟨urls, hurls, h⟩ := bind_eq_ok h
    obtain ⟨_, rfl⟩ := urlsFromEnvFile_eq_ok.mp hurls
    obtain ⟨hmade, honly⟩ := onlyUrl_eq_ok h
    refine ⟨fun target htarget => ?_, fun _ url hurl => ?_⟩
    · obtain ⟨made, hunit, rfl⟩ := hmade target htarget
      exact ⟨hunit, rfl⟩
    · obtain ⟨made, -, -, rfl⟩ := honly url hurl
      exact List.cons_ne_nil _ _

/-- The targets a pattern finds are instances of its template. -/
theorem patternTargets_unit {u : Unicode} {fs : FileSystem} {templatePath : PosixPath}
    {head spec : Str} {targets : List ChannelTarget}
    (h : patternTargets u fs templatePath head spec = .ok targets) {target : ChannelTarget}
    (htarget : target ∈ targets) : target.unit = instanceUnit head target.channel := by
  unfold patternTargets at h
  split_ifs at h
  · dsimp only at h
    split at h
    · cases h
      cases htarget
    · split at h
      · cases h
      · cases h
      · obtain ⟨parts, hparts, h⟩ := bind_eq_ok h
        cases h
        obtain ⟨envPath, _, part, hpart, hmem⟩ := (mem_flatten_of_mapM hparts).mp htarget
        exact ((instanceTarget_eq_ok hpart).1 target hmem).1
  · cases h
    cases htarget

theorem removeSuffix_append (suffix text : Str) : removeSuffix suffix (text ++ suffix) = text := by
  unfold removeSuffix
  rw [if_pos (List.isSuffixOf_iff_suffix.mpr (List.suffix_append text suffix)),
    List.length_append, Nat.add_sub_cancel, List.take_left]

/-- The unit of a target: the file it is from, or an instance of a template, whose name is
then the channel. -/
theorem unitTargets_unit {u : Unicode} {fs : FileSystem} {path : PosixPath}
    {targets : List ChannelTarget} (h : unitTargets u fs path = .ok targets)
    {target : ChannelTarget} (htarget : target ∈ targets) :
    target.unit = path.name ∨ ∃ head, path.name = head ++ templateSuffix ∧
      target.unit = instanceUnit head target.channel := by
  unfold unitTargets readTextOr at h
  split at h
  · cases h
    cases htarget
  · cases h
  · cases h
  · split_ifs at h with htemplate
    · obtain ⟨parts, hparts, h⟩ := bind_eq_ok h
      cases h
      obtain ⟨spec, _, part, hpart, hmem⟩ := (mem_flatten_of_mapM hparts).mp htarget
      obtain ⟨head, hhead⟩ := List.isSuffixOf_iff_suffix.mp htemplate
      refine .inr ⟨head, hhead.symm, ?_⟩
      have hunit := patternTargets_unit hpart hmem
      rwa [← hhead, removeSuffix_append] at hunit
    · left
      obtain ⟨envUrls, _, h⟩ := bind_eq_ok h
      obtain ⟨made, hunit, rfl⟩ := (onlyUrl_eq_ok h).1 target htarget
      exact hunit

end UdpAnalyzer
