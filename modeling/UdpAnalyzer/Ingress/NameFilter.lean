import UdpAnalyzer.Ingress.Receivers
import UdpAnalyzer.Lib.Related
import UdpAnalyzer.Lib.Run

/-! The name of the wanted process, asked for twice. The command line gives it to the filter of
the rows and to the scan as well, which then skips the processes of other names. Two enrichers
in the same surroundings, one that knows the name and one that does not, keep caches of which
the first is the part of that name. -/

namespace UdpAnalyzer

/-- The sockets of the processes of a name. -/
def named (n : Str) (found : List ProcessSocket) : List ProcessSocket :=
  found.filter fun row => row.processName = n

/-! ### The scan -/

/-- Every socket of a process has its name. -/
theorem ProcessFiles.sockets_named {p : ProcessFiles} {rows : List ProcessSocket}
    (h : p.sockets none = .ok rows) {n : Str} (hn : n ≠ []) :
    p.sockets (some n) = .ok (named n rows) := by
  unfold ProcessFiles.sockets at h ⊢
  obtain ⟨comm, hcomm, h⟩ := bind_eq_ok h
  rw [hcomm, ok_bind]
  dsimp only [Option.any_none, Option.any_some] at h ⊢
  rw [if_neg Bool.false_ne_true] at h
  obtain ⟨inodes, hinodes, h⟩ := bind_eq_ok h
  have hall : ∀ row ∈ rows, row.processName = strip comm := by
    split_ifs at h
    · rw [← Except.ok.inj h]
      exact fun row hrow => absurd hrow List.not_mem_nil
    · obtain ⟨commandLine, -, h⟩ := bind_eq_ok h
      obtain ⟨containerId, -, h⟩ := bind_eq_ok h
      obtain ⟨containerPid, -, h⟩ := bind_eq_ok h
      obtain ⟨netnsId, -, h⟩ := bind_eq_ok h
      obtain ⟨table, -, h⟩ := bind_eq_ok h
      rw [← Except.ok.inj h]
      exact List.forall_mem_map.mpr fun _ _ => rfl
  by_cases hname : strip comm = n
  · rw [if_neg (by simp [hname]), hinodes, ok_bind, h, named,
      List.filter_eq_self.mpr fun row hrow => decide_eq_true ((hall row hrow).trans hname)]
  · have hnone : named n rows = [] := List.filter_eq_nil_iff.mpr fun row hrow hrow' =>
      hname ((hall row hrow).symm.trans (of_decide_eq_true hrow'))
    rw [if_pos (by simp [hn, hname]), hnone]
    rfl

theorem scan_named {processes : List ProcessFiles} {found : List ProcessSocket}
    (h : scan processes none = .ok found) {n : Str} (hn : n ≠ []) :
    scan processes (some n) = .ok (named n found) := by
  obtain ⟨parts, hparts, hfound⟩ := bind_eq_ok h
  have hnamed : processes.mapM (fun p => p.sockets (some n)) = .ok (parts.map (named n)) := by
    rw [mapM_eq_ok_iff, List.forall₂_map_right_iff]
    exact (mapM_eq_ok_iff.mp hparts).imp fun p rows hrows => p.sockets_named hrows hn
  rw [scan, hnamed, ok_bind, ← Except.ok.inj hfound, named, List.filter_flatten]
  rfl

/-! ### The caches -/

namespace ProcessSocketEnricher

/-- The first enricher knows the name; what it keeps is the part of that name of what the
second one keeps. -/
structure Narrows (n : Str) (en en₀ : ProcessSocketEnricher) : Prop where
  processName : en.processName = some n
  unnamed : en₀.processName = none
  cacheTtl : en.cacheTtl = en₀.cacheTtl
  cacheAt : en.cacheAt = en₀.cacheAt
  cachedSockets : en.cachedSockets = named n en₀.cachedSockets

theorem narrows_sockets {n : Str} (hn : n ≠ []) {en en₀ : ProcessSocketEnricher}
    (h : en.Narrows n en₀) {monotonic : ℤ} {processes : List ProcessFiles}
    (hscan : monotonic - en₀.cacheAt > en₀.cacheTtl → Returns (scan processes none)) :
    ∃ found, ∃ en' en₀', en'.Narrows n en₀' ∧
      en₀.sockets ⟨monotonic, scan processes⟩ = (.ok found, en₀') ∧
      en.sockets ⟨monotonic, scan processes⟩ = (.ok (named n found), en') := by
  have hold : monotonic - en.cacheAt > en.cacheTtl ↔ monotonic - en₀.cacheAt > en₀.cacheTtl := by
    rw [h.cacheAt, h.cacheTtl]
  unfold ProcessSocketEnricher.sockets
  dsimp only
  by_cases hrenew : monotonic - en₀.cacheAt > en₀.cacheTtl
  · obtain ⟨found, hfound⟩ := hscan hrenew
    have hfound' : scan processes en₀.processName = .ok found := by rw [h.unnamed, hfound]
    have hnamed : scan processes en.processName = .ok (named n found) := by
      rw [h.processName, scan_named hfound hn]
    rw [if_pos hrenew, if_pos (hold.mpr hrenew), hfound', hnamed]
    exact ⟨found, { en with cachedSockets := named n found, cacheAt := monotonic },
      { en₀ with cachedSockets := found, cacheAt := monotonic },
      ⟨h.processName, h.unnamed, h.cacheTtl, rfl, rfl⟩, rfl, rfl⟩
  · rw [if_neg hrenew, if_neg fun hen => hrenew (hold.mp hen)]
    exact ⟨en₀.cachedSockets, en, en₀, h, rfl, by rw [h.cachedSockets]⟩

end ProcessSocketEnricher

/-! ### The rows -/

theorem findMatches_named (n : Str) (found : List ProcessSocket) (sample : UdpSample) :
    findMatches (named n found) sample = named n (findMatches found sample) :=
  List.filter_comm _ _ _

theorem findInodeMatches_named (n : Str) (found : List ProcessSocket) (socketInode : ℤ) :
    findInodeMatches (named n found) socketInode = named n (findInodeMatches found socketInode) :=
  List.filter_comm _ _ _

section Filtered
variable {f : SampleFilter} {n : Str} (hf : f.processName = some n)
include hf

theorem processName_of_matches {sample : UdpSample} (h : f.matchesSample sample = true) :
    sample.processName = n := by
  simp only [SampleFilter.matchesSample, hf, wants, Option.all_some, Bool.and_eq_true,
    decide_eq_true_eq] at h
  exact h.1.2

/-- Of the rows of some sockets the filter keeps those of the name only. -/
theorem filter_map_named (rows : List ProcessSocket) {row : ProcessSocket → UdpSample}
    (hrow : ∀ x, (row x).processName = x.processName) :
    ((named n rows).map row).filter f.matchesSample = (rows.map row).filter f.matchesSample := by
  rw [named, List.filter_map, List.filter_map, List.filter_filter]
  congr 1
  apply List.filter_congr
  intro x _
  cases hkeep : f.matchesSample (row x) with
  | false => simp [hkeep]
  | true =>
    have hname := (hrow x).symm.trans (processName_of_matches hf hkeep)
    simp [hkeep, hname]

/-- Where the other owners of a socket are left out, its row may be left without an owner;
the filter drops it. -/
theorem filter_attributedRows_named {sample : UdpSample} (hsample : sample.processName ≠ n)
    (socketCookie : ℤ) (rows : List ProcessSocket) :
    (ProcessSocketEnricher.attributedRows sample socketCookie (named n rows)).filter
        f.matchesSample =
      (ProcessSocketEnricher.attributedRows sample socketCookie rows).filter f.matchesSample := by
  have hrows := @filter_map_named f n hf rows
    (ProcessSocketEnricher.attributed sample socketCookie).withProcess fun _ => rfl
  have hfallback :
      [ProcessSocketEnricher.attributed sample socketCookie].filter f.matchesSample = [] := by
    rw [List.filter_eq_nil_iff]
    intro row hrow hkeep
    rw [List.mem_singleton.mp hrow] at hkeep
    have hname : (ProcessSocketEnricher.attributed sample socketCookie).processName = n :=
      processName_of_matches hf hkeep
    exact hsample hname
  cases rows with
  | nil => rfl
  | cons x rest =>
    cases hnamed : named n (x :: rest) with
    | nil =>
      rw [hnamed] at hrows
      exact hfallback.trans hrows
    | cons y rest' =>
      rw [hnamed] at hrows
      exact hrows

end Filtered

/-! ### Runs -/

/-- A question to the enricher. -/
inductive Enrichment where
  | legacy (sample : UdpSample)
  | exact (sample : UdpSample) (socketInode socketCookie : ℤ)

/-- One call of the enricher, with the clock and the files of `/proc` it meets. -/
structure EnricherCall where
  monotonic : ℤ
  processes : List ProcessFiles
  enrichment : Enrichment

/-- The sample a kernel-attributed row starts from does not have the name yet. -/
def Enrichment.Unattributed (n : Str) : Enrichment → Prop
  | .legacy _ => True
  | .exact sample _ _ => sample.processName ≠ n

/-- A zero inode is not looked up. -/
def Enrichment.AsksSockets : Enrichment → Prop
  | .legacy _ => True
  | .exact _ socketInode _ => socketInode ≠ 0

namespace ProcessSocketEnricher

def answer (en : ProcessSocketEnricher) (call : EnricherCall) :
    Except PyExc (List UdpSample) × ProcessSocketEnricher :=
  match call.enrichment with
  | .legacy sample => en.enrich ⟨call.monotonic, scan call.processes⟩ sample
  | .exact sample socketInode socketCookie =>
    en.enrichExact ⟨call.monotonic, scan call.processes⟩ sample socketInode socketCookie

/-- The call scans the process table: the cached scan is older than the enricher allows, and the
enrichment asks for it. -/
def Scans (en : ProcessSocketEnricher) (call : EnricherCall) : Prop :=
  call.monotonic - en.cacheAt > en.cacheTtl ∧ call.enrichment.AsksSockets

/-- Both calls return, and the filter keeps the same rows of them. -/
def SameRows (f : SampleFilter) (r r₀ : Except PyExc (List UdpSample)) : Prop :=
  ∃ rows rows₀, r = .ok rows ∧ r₀ = .ok rows₀ ∧
    rows.filter f.matchesSample = rows₀.filter f.matchesSample

theorem SameRows.filtered {f : SampleFilter} {r r₀ : Except PyExc (List UdpSample)}
    (h : SameRows f r r₀) :
    r.map (List.filter f.matchesSample) = r₀.map (List.filter f.matchesSample) := by
  obtain ⟨rows, rows₀, rfl, rfl, hrows⟩ := h
  exact congrArg Except.ok hrows

/-- Over any calls, an enricher that knows the name answers what one that does not would have,
as far as the filter shows it. -/
def ScansSafely (n : Str) (f : SampleFilter) (cacheTtl : ℤ) (calls : List EnricherCall) : Prop :=
  List.Forall₂ (fun out out₀ => SameRows f out.1 out₀.1)
    (outcomes answer calls { processName := some n, cacheTtl })
    (outcomes answer calls { cacheTtl })

theorem ScansSafely.head {n : Str} {f : SampleFilter} {cacheTtl : ℤ} {call : EnricherCall}
    (h : ScansSafely n f cacheTtl [call]) :
    SameRows f (answer { processName := some n, cacheTtl } call).1 (answer { cacheTtl } call).1 :=
  (List.forall₂_cons.mp h).1

variable {n : Str} (hn : n ≠ []) {f : SampleFilter} (hf : f.processName = some n)
include hn hf

theorem narrows_answer {en en₀ : ProcessSocketEnricher} (h : en.Narrows n en₀)
    {call : EnricherCall} (hscan : en₀.Scans call → Returns (scan call.processes none))
    (hsample : call.enrichment.Unattributed n) :
    SameRows f (en.answer call).1 (en₀.answer call).1 ∧
      (en.answer call).2.Narrows n (en₀.answer call).2 := by
  obtain ⟨monotonic, processes, enrichment⟩ := call
  cases enrichment with
  | legacy sample =>
    obtain ⟨found, en', en₀', h', hsockets₀, hsockets⟩ := @narrows_sockets n hn en en₀ h monotonic
      processes fun hold => hscan ⟨hold, trivial⟩
    simp only [ProcessSocketEnricher.answer, enrich, hsockets, hsockets₀]
    refine ⟨⟨_, _, rfl, rfl, ?_⟩, h'⟩
    rw [findMatches_named, List.filter_cons, List.filter_cons,
      filter_map_named hf _ fun _ => rfl]
  | exact sample socketInode socketCookie =>
    simp only [ProcessSocketEnricher.answer, enrichExact]
    split_ifs with hinode
    · exact ⟨⟨_, _, rfl, rfl, rfl⟩, h⟩
    · obtain ⟨found, en', en₀', h', hsockets₀, hsockets⟩ := @narrows_sockets n hn en en₀ h
        monotonic processes fun hold => hscan ⟨hold, hinode⟩
      simp only [hsockets, hsockets₀]
      refine ⟨⟨_, _, rfl, rfl, ?_⟩, h'⟩
      rw [findInodeMatches_named, filter_attributedRows_named hf hsample]

theorem narrows_outcomes {calls : List EnricherCall}
    (hsample : ∀ call ∈ calls, call.enrichment.Unattributed n) :
    ∀ {en en₀ : ProcessSocketEnricher}, en.Narrows n en₀ →
      Along (leaves answer) (fun en₀ call => en₀.Scans call → Returns (scan call.processes none))
        en₀ calls →
      List.Forall₂ (fun out out₀ => SameRows f out.1 out₀.1) (outcomes answer calls en)
        (outcomes answer calls en₀) := by
  induction calls with
  | nil => exact fun _ _ => .nil
  | cons call rest ih =>
    rw [List.forall_mem_cons] at hsample
    intro en en₀ h hscan
    obtain ⟨hrows, hnext⟩ := narrows_answer hn hf h hscan.1 hsample.1
    exact .cons hrows (ih hsample.2 hnext hscan.2)

/-- The name may go into the scan: what the filter keeps is the same, provided that the scans of
all processes that are made return, and that no sample has the name before it is attributed. -/
theorem name_scans_safely (cacheTtl : ℤ) (calls : List EnricherCall)
    (hscan : Along (leaves answer)
      (fun en₀ call => en₀.Scans call → Returns (scan call.processes none)) { cacheTtl } calls)
    (hsample : ∀ call ∈ calls, call.enrichment.Unattributed n) :
    ScansSafely n f cacheTtl calls :=
  narrows_outcomes hn hf hsample ⟨rfl, rfl, rfl, rfl, rfl⟩ hscan

end ProcessSocketEnricher

/-! Two owners of one socket, a sample that has its name already, and a process of another name
whose arguments are no text. -/

def wantedName : Str := "ffmpeg".toList

def nameFilter : SampleFilter := { processName := some wantedName }

def playerDir : ProcDir := { receiverDir 200 with comm := .ok (asciiBytes "vlc\n".toList) }

def garbledDir : ProcDir := { playerDir with cmdline := .ok [0xFF] }

def ownersCall (processes : List ProcDir) (enrichment : Enrichment) : EnricherCall :=
  ⟨5000000000, processes.map ProcDir.files, enrichment⟩

theorem name_scans_safely_owners :
    ProcessSocketEnricher.ScansSafely wantedName nameFilter 1000000000
      [ownersCall [receiverDir 100, playerDir] (.legacy multicastSample),
        ownersCall [playerDir] (.exact multicastSample 555 7)] := by
  apply ProcessSocketEnricher.name_scans_safely (by decide) rfl
  · exact ⟨fun _ => returns_of_toBool (by decide +kernel),
      fun _ => returns_of_toBool (by decide +kernel), trivial⟩
  · intro call hcall
    rcases List.mem_pair.mp hcall with rfl | rfl
    · trivial
    · show multicastSample.processName ≠ wantedName
      decide

/-- Without its other owner the socket has none, and the sample keeps the name it came with. -/
theorem named_sample_kept :
    ¬ ProcessSocketEnricher.ScansSafely wantedName nameFilter 1000000000
      [ownersCall [playerDir] (.exact { multicastSample with processName := wantedName } 555 7)] ∧
    ¬ ProcessSocketEnricher.ScansSafely wantedName nameFilter 1000000000
      [ownersCall [receiverDir 100, garbledDir] (.legacy multicastSample)] := by
  constructor
  · intro h
    exact absurd h.head.filtered (by decide +kernel)
  · intro h
    exact absurd h.head.filtered (by decide +kernel)

end UdpAnalyzer
