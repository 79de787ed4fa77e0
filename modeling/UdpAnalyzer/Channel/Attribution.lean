import UdpAnalyzer.Channel.Cgroup
import UdpAnalyzer.Channel.EndToEnd
import UdpAnalyzer.Channel.Merge

/-! Attribution of channel rows over the life of processes. The kernel stores the
pid of the process that first accounts on a CPU slot and never refreshes it; the
collector looks the pid up when it reads a checkpoint. A row carries the unit of
its own cgroup as long as no pid that a flow still carries is given to a process of
another unit before its lookup. -/

namespace UdpAnalyzer

variable {P : ChannelProgram} {n : ℕ}

/-- The live processes with their cgroups, and the flow map. -/
structure Host (n : ℕ) where
  procs : Dict ℤ (BitVec 64) := ∅
  flows : FlowMap n := ∅

/-- What happens on a host: a process starts in some cgroup, forks into its own
cgroup, exits, makes a call that is hooked; a flow is evicted. -/
inductive HostEvent (P : ChannelProgram) (n : ℕ) where
  | start (pid : BitVec 32) (cgroupId : BitVec 64)
  | fork (parent child : BitVec 32)
  | exit (pid : BitVec 32)
  | call (pid tid : BitVec 32) (cpu : Fin n) (nowNs : BitVec 64) (room : Bool) (systemCall : P.Call)
  | evict (key : ChannelKey)

/-- The context of a hook that runs for a process. -/
def processContext (pid tid : BitVec 32) (cpu : Fin n) (nowNs : BitVec 64) (room : Bool)
    (cgroupId : BitVec 64) : HookContext n where
  cpu := cpu
  nowNs := nowNs
  pidTgid := BitVec.ofNat 64 (pid.toNat * 2 ^ 32 + tid.toNat)
  cgroupId := cgroupId
  room := room

namespace HostEvent

/-- The process an event creates; pids in use are not given out. -/
def newProcess (h : Host n) : HostEvent P n → Option (ℤ × BitVec 64)
  | start pid cgroupId => if (pid.toNat : ℤ) ∈ h.procs then none else some (pid.toNat, cgroupId)
  | fork parent child =>
    if (child.toNat : ℤ) ∈ h.procs then none
    else (h.procs.get? parent.toNat).map fun cgroupId => (child.toNat, cgroupId)
  | _ => none

def step (h : Host n) (ev : HostEvent P n) : Host n :=
  match ev with
  | exit pid => { h with procs := h.procs.restrict fun p => p ≠ pid.toNat }
  | call pid tid cpu nowNs room systemCall =>
    match h.procs.get? pid.toNat with
    | none => h
    | some cgroupId =>
      { h with flows := P.hook (processContext pid tid cpu nowNs room cgroupId) systemCall h.flows }
  | evict key => { h with flows := h.flows.evict key }
  | ev =>
    match ev.newProcess h with
    | none => h
    | some (pid, cgroupId) => { h with procs := h.procs.set pid cgroupId }

end HostEvent

section Units

-- the text of the cgroup file of the processes of a cgroup
variable (cgroupText : BitVec 64 → Str)

/-- The unit that owns a cgroup. -/
def unitOfCgroup (cgroupId : BitVec 64) : Str := unitFromCgroupText (cgroupText cgroupId)

/-- `unit_for_pid` on a host. -/
def Host.unitForPid (h : Host n) (pid : ℤ) : Str :=
  unitOfCgroupFile ((h.procs.get? pid).map cgroupText)

/-- A process with this pid is of another unit than the flow that carries the pid. -/
def Mistaken (key : ChannelKey) (flowPid pid : ℤ) (cgroupId : BitVec 64) : Prop :=
  pid = flowPid ∧ unitOfCgroup cgroupText cgroupId ≠ [] ∧
    unitOfCgroup cgroupText cgroupId ≠ unitOfCgroup cgroupText key.cgroupId

/-- The event gives a flow's pid to no process of another unit. -/
def HostEvent.SparesFlow (key : ChannelKey) (flowPid : ℤ) (h : Host n) (ev : HostEvent P n) : Prop :=
  ∀ p ∈ ev.newProcess h, ¬ Mistaken cgroupText key flowPid p.1 p.2

/-- The event gives the pid of no flow in the map to a process of another unit. -/
def HostEvent.Spares (h : Host n) (ev : HostEvent P n) : Prop :=
  ∀ key slots, h.flows.get? key = some slots →
    ev.SparesFlow cgroupText key (mergedValue slots).pid h

instance (key : ChannelKey) (flowPid pid : ℤ) (cgroupId : BitVec 64) :
    Decidable (Mistaken cgroupText key flowPid pid cgroupId) :=
  inferInstanceAs (Decidable (_ ∧ _ ∧ _))

instance (key : ChannelKey) (flowPid : ℤ) (h : Host n) (ev : HostEvent P n) :
    Decidable (ev.SparesFlow cgroupText key flowPid h) :=
  inferInstanceAs (Decidable (∀ p ∈ ev.newProcess h, _))

theorem forall_get?_iff {K V : Type*} [DecidableEq K] (d : Dict K V) (p : K → V → Prop) :
    (∀ e ∈ d.items, p e.1 e.2) ↔ ∀ k v, d.get? k = some v → p k v :=
  ⟨fun h k v hv => h (k, v) (Dict.get?_eq_some.mp hv),
    fun h e he => h e.1 e.2 (Dict.get?_eq_some.mpr he)⟩

instance (h : Host n) (ev : HostEvent P n) : Decidable (ev.Spares cgroupText h) :=
  decidable_of_iff (∀ e ∈ h.flows.items, ev.SparesFlow cgroupText e.1 (mergedValue e.2).pid h)
    (forall_get?_iff h.flows fun key slots => ev.SparesFlow cgroupText key (mergedValue slots).pid h)

/-- Whoever has the pid of a flow now is of no other unit than the flow. -/
def Host.Owns (h : Host n) (key : ChannelKey) (flowPid : ℤ) : Prop :=
  ∀ cgroupId, h.procs.get? flowPid = some cgroupId → unitOfCgroup cgroupText cgroupId = [] ∨
    unitOfCgroup cgroupText cgroupId = unitOfCgroup cgroupText key.cgroupId

def Host.Owned (h : Host n) : Prop :=
  ∀ key slots, h.flows.get? key = some slots → h.Owns cgroupText key (mergedValue slots).pid

variable {cgroupText}

/-! ### The pid of a flow -/

/-- Writing a pid into a slot that had none changes the first pid to the new one or
not at all. -/
theorem firstNonzero_update {slots slots' : Fin n → ℤ} {cpu : Fin n} {pid : ℤ}
    (hsame : ∀ c, c ≠ cpu → slots' c = slots c)
    (hcpu : slots' cpu = slots cpu ∨ slots cpu = 0 ∧ slots' cpu = pid) (cpus : List (Fin n)) :
    firstNonzero (cpus.map slots') = firstNonzero (cpus.map slots) ∨
      firstNonzero (cpus.map slots') = pid := by
  induction cpus with
  | nil => exact .inl rfl
  | cons c rest ih =>
    rw [List.map_cons, List.map_cons, firstNonzero_cons, firstNonzero_cons]
    have hc : slots' c = slots c ∨ slots c = 0 ∧ slots' c = pid := by
      by_cases h : c = cpu
      · rw [h]
        exact hcpu
      · exact .inl (hsame c h)
    rcases hc with hc | ⟨hzero, hpid⟩
    · rw [hc]
      split_ifs
      · exact ih
      · exact .inl rfl
    · rw [hzero, hpid, if_pos rfl]
      split_ifs
      · exact ih
      · exact .inr rfl

theorem pid_processContext (pid tid : BitVec 32) (cpu : Fin n) (nowNs : BitVec 64) (room : Bool)
    (cgroupId : BitVec 64) (sk : Sock) (state : BitVec 32) :
    (freshValue (processContext pid tid cpu nowNs room cgroupId) sk state).pid = pid := by
  apply BitVec.eq_of_toNat_eq
  have hpid := pid.isLt
  have htid := tid.isLt
  simp only [freshValue, processContext, BitVec.toNat_setWidth, BitVec.toNat_ushiftRight,
    BitVec.toNat_ofNat, Nat.shiftRight_eq_div_pow]
  omega

/-- Storing a pid where a slot has none. -/
theorem pid_update {slots : Fin n → ChannelValue} {cpu : Fin n} {v : ChannelValue} {pid : BitVec 32}
    (h : v.pid = if (slots cpu).pid = 0 then pid else (slots cpu).pid) :
    (mergedValue (Function.update slots cpu v)).pid = (mergedValue slots).pid ∨
      (mergedValue (Function.update slots cpu v)).pid = pid.toNat := by
  rw [pid_mergedValue, pid_mergedValue]
  apply firstNonzero_update
  · intro c hc
    rw [Function.update_of_ne hc]
  · rw [Function.update_self, h]
    split_ifs with hzero
    · right
      rw [hzero]
      exact ⟨rfl, rfl⟩
    · exact .inl rfl

theorem pid_update_empty (cpu : Fin n) (v : ChannelValue) :
    (mergedValue (Function.update (fun _ => {}) cpu v)).pid = v.pid.toNat := by
  rw [pid_mergedValue]
  apply firstNonzero_of_forall
  · intro a ha
    obtain ⟨c, -, rfl⟩ := List.mem_map.mp ha
    by_cases hc : c = cpu
    · rw [hc, Function.update_self]
      exact .inr rfl
    · rw [Function.update_of_ne hc]
      exact .inl rfl
  · exact List.mem_map.mpr ⟨cpu, List.mem_finRange cpu, by rw [Function.update_self]⟩

/-- Accounting to a flow leaves its pid or makes it the pid of the call. -/
theorem pid_accountFlow {ctx : HookContext n} {pid : BitVec 32} {sk : Sock} {key : ChannelKey}
    {charge : Charge} {m : FlowMap n} {slots : Fin n → ChannelValue}
    (hpid : (freshValue ctx sk charge.state).pid = pid)
    (h : (accountFlow ctx sk key charge m).get? key = some slots) :
    (∃ old, m.get? key = some old ∧ (mergedValue slots).pid = (mergedValue old).pid) ∨
      (mergedValue slots).pid = pid.toNat := by
  rw [get?_accountFlow, if_pos rfl] at h
  obtain ⟨old, hold, rfl⟩ := Option.map_eq_some_iff.mp h
  have hslot : ∀ v : ChannelValue,
      (v.account (freshValue ctx sk charge.state) charge ctx.nowNs).pid =
        if v.pid = 0 then pid else v.pid := by
    intro v
    rw [← hpid]
    rfl
  unfold FlowMap.slotsFor at hold
  cases hget : m.get? key with
  | some found =>
    rw [hget] at hold
    cases hold
    rcases pid_update (hslot (old ctx.cpu)) with hsame | hnew
    · exact .inl ⟨old, rfl, hsame⟩
    · exact .inr hnew
  | none =>
    rw [hget] at hold
    dsimp only at hold
    split_ifs at hold
    cases hold
    right
    rw [Function.update_idem, pid_update_empty, Function.update_self, hslot, hpid, ite_self]

/-- All that a call of a process does to the pids of the flows. -/
theorem pid_call {pid tid : BitVec 32} {cpu : Fin n} {nowNs : BitVec 64} {room : Bool}
    {cgroupId : BitVec 64} {systemCall : P.Call} {m : FlowMap n} {key : ChannelKey}
    {slots : Fin n → ChannelValue}
    (h : (P.hook (processContext pid tid cpu nowNs room cgroupId) systemCall m).get? key =
      some slots) :
    (∃ old, m.get? key = some old ∧ (mergedValue slots).pid = (mergedValue old).pid) ∨
      ((mergedValue slots).pid = pid.toNat ∧ key.cgroupId = cgroupId) := by
  cases hcharged : P.charged (processContext pid tid cpu nowNs room cgroupId) systemCall with
  | none =>
    have hstanding := congrFun (P.hook_uncharged hcharged m) key
    rw [FlowMap.standing, h, FlowMap.standing] at hstanding
    obtain ⟨old, hold, hsame⟩ := Option.map_eq_some_iff.mp hstanding.symm
    refine .inl ⟨old, hold, ?_⟩
    have hpids : ∀ cpu, (slots cpu).pid = (old cpu).pid := by
      intro cpu
      have hcpu := congrArg ChannelValue.pid (congrFun hsame cpu)
      exact hcpu.symm
    rw [pid_mergedValue, pid_mergedValue]
    simp only [hpids]
  | some p =>
    obtain ⟨k, charge⟩ := p
    obtain ⟨sk, haccount⟩ := P.hook_charged hcharged
    rw [haccount m] at h
    by_cases hk : key = k
    · subst hk
      rcases pid_accountFlow (pid_processContext _ _ _ _ _ _ _ _) h with hold | hnew
      · exact .inl hold
      · exact .inr ⟨hnew, P.cgroupId hcharged⟩
    · rw [get?_accountFlow, if_neg hk] at h
      exact .inl ⟨slots, h, rfl⟩

/-! ### Ownership is kept -/

/-- A pid in use after an event was in use before, or the event gave it out. -/
theorem procs_step {h : Host n} {ev : HostEvent P n} {pid : ℤ} {cgroupId : BitVec 64}
    (hpid : (ev.step h).procs.get? pid = some cgroupId) :
    h.procs.get? pid = some cgroupId ∨ ev.newProcess h = some (pid, cgroupId) := by
  have hnew : ∀ p : Option (ℤ × BitVec 64), (match p with
      | none => h
      | some (pid, cgroupId) => { h with procs := h.procs.set pid cgroupId }).procs.get? pid =
        some cgroupId → h.procs.get? pid = some cgroupId ∨ p = some (pid, cgroupId) := by
    intro p hp
    match p with
    | none => exact .inl hp
    | some (q, g) =>
      dsimp only at hp
      rw [Dict.get?_set] at hp
      split_ifs at hp with hq
      · cases hp
        exact .inr (by rw [hq])
      · exact .inl hp
  cases ev with
  | start q g => exact hnew _ hpid
  | fork parent child => exact hnew _ hpid
  | exit q =>
    left
    unfold HostEvent.step at hpid
    dsimp only at hpid
    rw [Dict.get?_restrict] at hpid
    split_ifs at hpid
    exact hpid
  | call q tid cpu nowNs room systemCall =>
    left
    unfold HostEvent.step at hpid
    dsimp only at hpid
    split at hpid <;> exact hpid
  | evict key => exact .inl hpid

theorem owns_step {h : Host n} {ev : HostEvent P n} {key : ChannelKey} {flowPid : ℤ}
    (howns : h.Owns cgroupText key flowPid) (hspares : ev.SparesFlow cgroupText key flowPid h) :
    (ev.step h).Owns cgroupText key flowPid := by
  intro cgroupId hpid
  rcases procs_step hpid with hold | hnew
  · exact howns cgroupId hold
  · by_contra hother
    rw [not_or] at hother
    exact hspares (flowPid, cgroupId) hnew ⟨rfl, hother.1, hother.2⟩

theorem owned_step {h : Host n} {ev : HostEvent P n} (howned : h.Owned cgroupText)
    (hspares : ev.Spares cgroupText h) : (ev.step h).Owned cgroupText := by
  -- a flow whose pid did not change keeps its owner
  have hkept : ∀ (key : ChannelKey) (slots old : Fin n → ChannelValue), h.flows.get? key = some old →
      (mergedValue slots).pid = (mergedValue old).pid →
      (ev.step h).Owns cgroupText key (mergedValue slots).pid := by
    intro key slots old hold hsame
    rw [hsame]
    exact owns_step (howned key old hold) (hspares key old hold)
  intro key slots hget
  cases ev with
  | start q g =>
    have hflows : (HostEvent.step h (.start q g : HostEvent P n)).flows = h.flows := by
      unfold HostEvent.step
      dsimp only
      split <;> rfl
    rw [hflows] at hget
    exact hkept key slots slots hget rfl
  | fork parent child =>
    have hflows : (HostEvent.step h (.fork parent child : HostEvent P n)).flows = h.flows := by
      unfold HostEvent.step
      dsimp only
      split <;> rfl
    rw [hflows] at hget
    exact hkept key slots slots hget rfl
  | exit q => exact hkept key slots slots hget rfl
  | evict k =>
    have hget' : (h.flows.restrict fun k' => k' ≠ k).get? key = some slots := hget
    rw [Dict.get?_restrict] at hget'
    split_ifs at hget'
    exact hkept key slots slots hget' rfl
  | call q tid cpu nowNs room systemCall =>
    cases hproc : h.procs.get? q.toNat with
    | none =>
      have hstep : HostEvent.step h (.call q tid cpu nowNs room systemCall : HostEvent P n) = h := by
        unfold HostEvent.step
        dsimp only
        rw [hproc]
      rw [hstep] at hget
      exact hkept key slots slots hget rfl
    | some cgroupId =>
      have hstep : HostEvent.step h (.call q tid cpu nowNs room systemCall : HostEvent P n) =
          { h with flows :=
              P.hook (processContext q tid cpu nowNs room cgroupId) systemCall h.flows } := by
        unfold HostEvent.step
        dsimp only
        rw [hproc]
      rw [hstep] at hget
      rcases pid_call hget with ⟨old, hold, hsame⟩ | ⟨hpid, hcgroup⟩
      · exact hkept key slots old hold hsame
      · -- the pid is the caller's, which is in the cgroup of the flow
        intro g hg
        rw [hstep, hpid, hproc] at hg
        cases hg
        exact .inr (by rw [hcgroup])

/-! ### Checkpoints -/

/-- A checkpoint with what happens before it and while it is read: `lookupAt pid` is
the number of the later events that come before the lookup of a pid. -/
structure Round (P : ChannelProgram) (n : ℕ) where
  before : List (HostEvent P n)
  during : List (HostEvent P n)
  lookupAt : ℤ → ℕ
  listing : List (ChannelKey × (Fin n → ChannelValue)) → List (ChannelKey × (Fin n → ChannelValue))
  listing_perm : ∀ items, (listing items).Perm items
  poll : Option ℤ
  stderr : LoaderStderr
  nowNs : ℤ
  ifIndexToName : ℤ → Except PyExc Str

namespace Round

/-- The host when the map is dumped. -/
def dumped (r : Round P n) (h : Host n) : Host n := r.before.foldl HostEvent.step h

/-- The host when a pid is looked up. -/
def lookedUp (r : Round P n) (h : Host n) (pid : ℤ) : Host n :=
  (r.during.take (r.lookupAt pid)).foldl HostEvent.step (r.dumped h)

/-- The host when the checkpoint is done. -/
def after (r : Round P n) (h : Host n) : Host n := r.during.foldl HostEvent.step (r.dumped h)

variable (cgroupText)

/-- The checkpoint as an interval of the collector. -/
def interval (r : Round P n) (h : Host n) : Interval P n where
  events := []
  listing := r.listing
  listing_perm := r.listing_perm
  poll := r.poll
  stderr := r.stderr
  nowNs := r.nowNs
  unitForPid pid := .ok ((r.lookedUp h pid).unitForPid cgroupText pid)
  ifIndexToName := r.ifIndexToName

def step (s : Host n × ChannelCollector) (r : Round P n) :
    Except PyExc (List FlowEmission) × (Host n × ChannelCollector) :=
  match s.2.readCheckpoint P.kind ((r.interval cgroupText s.1).input (r.dumped s.1).flows) with
  | (out, c) => (out, (r.after s.1, c))

/-- No pid a flow carries is given to a process of another unit: none of a flow in
the map at any time, none of a flow in the dump before the pid is looked up. -/
structure Spares (h : Host n) (r : Round P n) : Prop where
  before : Along HostEvent.step (HostEvent.Spares cgroupText) h r.before
  during : Along HostEvent.step (HostEvent.Spares cgroupText) (r.dumped h) r.during
  lookups : ∀ key slots, (r.dumped h).flows.get? key = some slots →
    Along HostEvent.step (fun h ev => ev.SparesFlow cgroupText key (mergedValue slots).pid h)
      (r.dumped h) (r.during.take (r.lookupAt (mergedValue slots).pid))

instance (h : Host n) (r : Round P n) : Decidable (r.Spares cgroupText h) :=
  decidable_of_iff (Along HostEvent.step (HostEvent.Spares cgroupText) h r.before ∧
      Along HostEvent.step (HostEvent.Spares cgroupText) (r.dumped h) r.during ∧
      ∀ e ∈ (r.dumped h).flows.items, Along HostEvent.step
        (fun h ev => ev.SparesFlow cgroupText e.1 (mergedValue e.2).pid h) (r.dumped h)
        (r.during.take (r.lookupAt (mergedValue e.2).pid))) (by
    rw [forall_get?_iff (r.dumped h).flows fun key slots => Along HostEvent.step
        (fun h ev => ev.SparesFlow cgroupText key (mergedValue slots).pid h) (r.dumped h)
        (r.during.take (r.lookupAt (mergedValue slots).pid))]
    exact ⟨fun ⟨hb, hd, hl⟩ => ⟨hb, hd, hl⟩, fun ⟨hb, hd, hl⟩ => ⟨hb, hd, hl⟩⟩)

end Round

/-- A row without a unit, or with the unit that owns its cgroup. -/
def OwnUnit (cgroupText : BitVec 64 → Str) (row : ChannelSample) : Prop :=
  row.unit = [] ∨ ∃ cgroupId : BitVec 64, row.cgroupId = cgroupId.toNat ∧
    row.unit = unitOfCgroup cgroupText cgroupId

theorem owned_dumped {h : Host n} {r : Round P n} (howned : h.Owned cgroupText)
    (hspares : r.Spares cgroupText h) : (r.dumped h).Owned cgroupText :=
  hspares.before.invariant (fun _ _ => owned_step) howned

theorem owned_after {h : Host n} {r : Round P n} (howned : h.Owned cgroupText)
    (hspares : r.Spares cgroupText h) : (r.after h).Owned cgroupText :=
  hspares.during.invariant (fun _ _ => owned_step) (owned_dumped howned hspares)

/-- At its lookup a dumped pid still belongs to nobody else. -/
theorem owns_lookedUp {h : Host n} {r : Round P n} (howned : h.Owned cgroupText)
    (hspares : r.Spares cgroupText h) {key : ChannelKey} {slots : Fin n → ChannelValue}
    (hget : (r.dumped h).flows.get? key = some slots) :
    (r.lookedUp h (mergedValue slots).pid).Owns cgroupText key (mergedValue slots).pid := by
  have hstep : ∀ (h : Host n) (ev : HostEvent P n), h.Owns cgroupText key (mergedValue slots).pid →
      ev.SparesFlow cgroupText key (mergedValue slots).pid h →
      (ev.step h).Owns cgroupText key (mergedValue slots).pid := fun _ _ => owns_step
  exact Along.invariant hstep (owned_dumped howned hspares key slots hget)
    (hspares.lookups key slots hget)

/-- The cache holds answers of the process table. -/
def CacheAnswers (input : ChannelInput) (pidUnits : Dict ℤ Str) : Prop :=
  ∀ pid unit, pidUnits.get? pid = some unit → input.unitForPid pid = .ok unit

/-- Through the cache or not, a lookup gives the answer of the process table. -/
theorem unitForPid_spec {input : ChannelInput} {pid : ℤ} {pidUnits pidUnits' : Dict ℤ Str}
    {unit : Str} (hcache : CacheAnswers input pidUnits)
    (h : ChannelCollector.unitForPid input pid pidUnits = (.ok unit, pidUnits')) :
    (unit = [] ∨ input.unitForPid pid = .ok unit) ∧ CacheAnswers input pidUnits' := by
  unfold ChannelCollector.unitForPid at h
  split_ifs at h
  · cases h
    exact ⟨.inl rfl, hcache⟩
  · split at h
    next cached hcached =>
      cases h
      exact ⟨.inr (hcache pid unit hcached), hcache⟩
    next =>
      split at h
      · cases h
      next found hfound =>
        cases h
        refine ⟨.inr hfound, fun q u hq => ?_⟩
        rw [Dict.get?_set] at hq
        split_ifs at hq with hqp
        · cases hq
          rw [hqp, hfound]
        · exact hcache q u hq

/-- The rows of an emission carry the cgroup of their flow and what the lookup of its
pid gave. -/
theorem emitFlow_attributed (kind : ChannelKind) (c : ChannelCollector) (input : ChannelInput)
    (bucketNs elapsed : ℤ) : CounterLoop.EmitSpec (c.emitFlow kind input bucketNs elapsed)
      (CacheAnswers input) (fun e _ _ rows => ∀ row ∈ rows, row.cgroupId = e.key.cgroupId ∧
        (row.unit = [] ∨ input.unitForPid e.value.pid = .ok row.unit)) := by
  intro e d s b rows s' hcache hemit
  obtain ⟨unit, hunit, hsample, rfl⟩ := ChannelCollector.emitFlow_built hemit
  obtain ⟨⟨-, -, -, -, hcgroup⟩, -, -, hunit'⟩ := ChannelCollector.flowSample_spec hsample
  obtain ⟨hlookup, hcache'⟩ := unitForPid_spec hcache hunit
  refine ⟨fun row hrow => ?_, hcache'⟩
  obtain rfl := List.mem_singleton.mp (List.mem_filter.mp hrow).1
  rw [hunit']
  exact ⟨hcgroup.symm, hlookup⟩

/-- One checkpoint of a host where no flow's pid changed hands. -/
theorem Round.step_ownUnit {h : Host n} {c : ChannelCollector} {r : Round P n}
    {s' : Host n × ChannelCollector} {out : List FlowEmission}
    (hkeys : ∀ key ∈ (r.dumped h).flows, P.decoder.Accepts key) (howned : h.Owned cgroupText)
    (hspares : r.Spares cgroupText h) (hstep : r.step cgroupText (h, c) = (.ok out, s')) :
    ∀ em ∈ out, ∀ row ∈ em.rows, OwnUnit cgroupText row := by
  unfold step at hstep
  dsimp only at hstep
  rcases hread : c.readCheckpoint P.kind
      ((r.interval cgroupText h).input (r.dumped h).flows) with ⟨res, c'⟩
  rw [hread] at hstep
  cases hstep
  have hempty : CacheAnswers ((r.interval cgroupText h).input (r.dumped h).flows) ∅ :=
    fun pid unit hpid => by cases hpid
  obtain ⟨hdone, -⟩ := ChannelCollector.readFlows_spec (emitFlow_attributed _ _ _ _ _) hempty
    (ChannelCollector.readCheckpoint_spec hread)
  intro em hem row hrow
  obtain ⟨e, d, he, -, -, hrows⟩ := hdone.built em hem
  obtain ⟨hcgroup, hlookup⟩ := hrows row hrow
  -- the entry is one of the dumped map
  rw [dump_input hkeys] at he
  obtain ⟨⟨key, slots⟩, hitem, rfl⟩ := List.mem_map.mp he
  have hget : (r.dumped h).flows.get? key = some slots :=
    Dict.get?_eq_some.mpr ((r.listing_perm _).mem_iff.mp hitem)
  rcases hlookup with hnone | hunit
  · exact .inl hnone
  · have hunit' : (r.lookedUp h (mergedValue slots).pid).unitForPid cgroupText
        (mergedValue slots).pid = row.unit := Except.ok.inj hunit
    rw [OwnUnit, ← hunit', hcgroup, Host.unitForPid]
    cases hproc : (r.lookedUp h (mergedValue slots).pid).procs.get? (mergedValue slots).pid with
    | none => exact .inl rfl
    | some cgroupId =>
      rcases owns_lookedUp howned hspares hget cgroupId hproc with hnone | hsame
      · exact .inl hnone
      · exact .inr ⟨key.cgroupId, rfl, hsame⟩

/-! ### Whole runs -/

/-- The keys of the map stay keys the parser accepts. -/
theorem accepts_host {h : Host n} {events : List (HostEvent P n)}
    (hkeys : ∀ key ∈ h.flows, P.decoder.Accepts key) :
    ∀ key ∈ (events.foldl HostEvent.step h).flows, P.decoder.Accepts key := by
  induction events generalizing h with
  | nil => exact hkeys
  | cons ev rest ih =>
    refine ih ?_
    have hnew : ∀ p : Option (ℤ × BitVec 64), (match p with
        | none => h
        | some (pid, cgroupId) => { h with procs := h.procs.set pid cgroupId }).flows = h.flows := by
      intro p
      cases p <;> rfl
    cases ev with
    | start pid g => rwa [← hnew] at hkeys
    | fork parent child => rwa [← hnew] at hkeys
    | exit pid => exact hkeys
    | evict key =>
      show ∀ k ∈ KernelEvent.step h.flows (.evict key : KernelEvent P n), _
      exact accepts_step hkeys
    | call pid tid cpu nowNs room systemCall =>
      unfold HostEvent.step
      dsimp only
      split
      · exact hkeys
      next cgroupId _ =>
        show ∀ k ∈ KernelEvent.step h.flows (.hook (processContext pid tid cpu nowNs room cgroupId)
          systemCall : KernelEvent P n), _
        exact accepts_step hkeys

theorem run_ownUnit {rounds : List (Round P n)} {h : Host n} {c : ChannelCollector}
    {outs : List (List FlowEmission)} {s : Host n × ChannelCollector}
    (hkeys : ∀ key ∈ h.flows, P.decoder.Accepts key) (howned : h.Owned cgroupText)
    (hspares : Along (fun h r => r.after h) (Round.Spares cgroupText) h rounds)
    (hrun : completedRun (Round.step cgroupText) rounds (h, c) = some (outs, s)) :
    ∀ out ∈ outs, ∀ em ∈ out, ∀ row ∈ em.rows, OwnUnit cgroupText row := by
  induction rounds generalizing h c outs s with
  | nil =>
    cases hrun
    exact fun _ hout => absurd hout List.not_mem_nil
  | cons r rest ih =>
    have hdumped : ∀ key ∈ (r.dumped h).flows, P.decoder.Accepts key := accepts_host hkeys
    have hafter : ∀ key ∈ (r.after h).flows, P.decoder.Accepts key := accepts_host hdumped
    rcases hstep : r.step cgroupText (h, c) with ⟨res, h', c'⟩
    have hhost : h' = r.after h := by
      unfold Round.step at hstep
      cases hstep
      rfl
    cases res with
    | error e => simp [completedRun, hstep] at hrun
    | ok out =>
      simp only [completedRun, hstep, Option.map_eq_some_iff, Prod.mk.injEq] at hrun
      obtain ⟨⟨outs', s'⟩, hrest, rfl, rfl⟩ := hrun
      have hfirst := Round.step_ownUnit hdumped howned hspares.1 hstep
      rw [hhost] at hrest
      have hothers := ih hafter (owned_after howned hspares.1) hspares.2 hrest
      intro o ho
      rcases List.mem_cons.mp ho with rfl | ho
      · exact hfirst
      · exact hothers o ho

end Units

/-- Channel rows carry the unit of their own cgroup or none, in every run in which no
pid a flow carries is given to a process of another unit before its lookup. -/
theorem channel_rows_own_unit (n : ℕ) (cgroupText : BitVec 64 → Str)
    (procs : Dict ℤ (BitVec 64)) (c₀ : ChannelCollector) :
    (∀ (rounds : List (Round tcpProgram n)) (outs : List (List FlowEmission))
      (s : Host n × ChannelCollector),
      Along (fun h r => r.after h) (Round.Spares cgroupText) { procs := procs } rounds →
      completedRun (Round.step cgroupText) rounds ({ procs := procs }, c₀) = some (outs, s) →
      ∀ out ∈ outs, ∀ em ∈ out, ∀ row ∈ em.rows, OwnUnit cgroupText row) ∧
    (∀ (rounds : List (Round udpProgram n)) (outs : List (List FlowEmission))
      (s : Host n × ChannelCollector),
      Along (fun h r => r.after h) (Round.Spares cgroupText) { procs := procs } rounds →
      completedRun (Round.step cgroupText) rounds ({ procs := procs }, c₀) = some (outs, s) →
      ∀ out ∈ outs, ∀ em ∈ out, ∀ row ∈ em.rows, OwnUnit cgroupText row) := by
  have hnone : ∀ key : ChannelKey, key ∉ (∅ : FlowMap n) :=
    fun _ hkey => absurd hkey List.not_mem_nil
  refine ⟨fun rounds outs s hspares hrun => ?_, fun rounds outs s hspares hrun => ?_⟩
  · exact run_ownUnit (fun key hkey => absurd hkey (hnone key)) (fun key slots h => by cases h)
      hspares hrun
  · exact run_ownUnit (fun key hkey => absurd hkey (hnone key)) (fun key slots h => by cases h)
      hspares hrun

/-! A process of `a.service` sends, forks and exits; its pid goes to `b.service`
while the child goes on sending over the same socket. -/

def exampleCgroup (cgroupId : BitVec 64) : Str :=
  if cgroupId = 77 then "0::/user.slice/a.service\n".toList else "0::/user.slice/b.service\n".toList

def exampleRound (P : ChannelProgram) (nowNs : ℤ) (before : List (HostEvent P 1)) : Round P 1 where
  before := before
  during := []
  lookupAt _ := 0
  listing := id
  listing_perm _ := .refl _
  poll := none
  stderr := {}
  nowNs := nowNs
  ifIndexToName _ := .error .osError

def sendBy (pid : BitVec 32) : HostEvent tcpProgram 1 :=
  .call pid pid 0 1 true (TcpCall.sendmsgExit (some serviceSock) 100)

def receiveBy (pid : BitVec 32) : HostEvent udpProgram 1 :=
  .call pid pid 0 1 true (UdpCall.recvmsgExit (some serviceSock) 0 1316)

theorem pid_reuse_crosses_units : ∃ outs s row,
    completedRun (Round.step exampleCgroup)
        [exampleRound tcpProgram 1000000000 [.start 100 77, sendBy 100],
          exampleRound tcpProgram 2000000000
            [.fork 100 200, .exit 100, .start 100 88, sendBy 200]]
        ({}, freshChannel) = some (outs, s) ∧
      (outs.flatMap fun out => out.flatMap Emission.rows) = [row] ∧ row.cgroupId = 77 ∧
      row.unit = "b.service".toList ∧ ¬ OwnUnit exampleCgroup row := by
  have hrun : (completedRun (Round.step exampleCgroup)
      [exampleRound tcpProgram 1000000000 [.start 100 77, sendBy 100],
        exampleRound tcpProgram 2000000000 [.fork 100 200, .exit 100, .start 100 88, sendBy 200]]
      ({}, freshChannel)).map (fun p => (p.1.flatMap fun out => out.flatMap Emission.rows).map
        fun row => (row.cgroupId, row.unit)) = some [(77, "b.service".toList)] := by
    decide +kernel
  obtain ⟨⟨outs, s⟩, hrun, hrows⟩ := Option.map_eq_some_iff.mp hrun
  obtain ⟨row, hrow, hfields⟩ := List.map_eq_singleton_iff.mp hrows
  obtain ⟨hcgroup, hunit⟩ := Prod.mk.inj hfields
  refine ⟨outs, s, row, hrun, hrow, hcgroup, hunit, ?_⟩
  rintro (hnone | ⟨cgroupId, hid, hown⟩)
  · rw [hunit] at hnone
    cases hnone
  · have hid' : cgroupId = 77 := by
      apply BitVec.eq_of_toNat_eq
      rw [hcgroup] at hid
      exact_mod_cast hid.symm
    rw [hunit, hid'] at hown
    exact absurd hown (by decide)

/-- The same without the reuse of the pid. -/
theorem channel_rows_own_unit_fork :
    (∃ outs s, completedRun (Round.step exampleCgroup)
        [exampleRound tcpProgram 1000000000 [.start 100 77, sendBy 100],
          exampleRound tcpProgram 2000000000 [.fork 100 200, .start 300 88, sendBy 200]]
        ({}, freshChannel) = some (outs, s) ∧
      ∀ out ∈ outs, ∀ em ∈ out, ∀ row ∈ em.rows, OwnUnit exampleCgroup row) ∧
    (∃ outs s, completedRun (Round.step exampleCgroup)
        [exampleRound udpProgram 1000000000 [.start 100 77, receiveBy 100],
          exampleRound udpProgram 2000000000 [.fork 100 200, .start 300 88, receiveBy 200]]
        ({}, freshChannel) = some (outs, s) ∧
      ∀ out ∈ outs, ∀ em ∈ out, ∀ row ∈ em.rows, OwnUnit exampleCgroup row) := by
  refine ⟨?_, ?_⟩
  · have hsome : (completedRun (Round.step exampleCgroup)
        [exampleRound tcpProgram 1000000000 [.start 100 77, sendBy 100],
          exampleRound tcpProgram 2000000000 [.fork 100 200, .start 300 88, sendBy 200]]
        ({}, freshChannel)).isSome = true := by decide +kernel
    obtain ⟨⟨outs, s⟩, hrun⟩ := Option.isSome_iff_exists.mp hsome
    exact ⟨outs, s, hrun, (channel_rows_own_unit 1 exampleCgroup ∅ freshChannel).1 _ outs s
      (by decide +kernel) hrun⟩
  · have hsome : (completedRun (Round.step exampleCgroup)
        [exampleRound udpProgram 1000000000 [.start 100 77, receiveBy 100],
          exampleRound udpProgram 2000000000 [.fork 100 200, .start 300 88, receiveBy 200]]
        ({}, freshChannel)).isSome = true := by decide +kernel
    obtain ⟨⟨outs, s⟩, hrun⟩ := Option.isSome_iff_exists.mp hsome
    exact ⟨outs, s, hrun, (channel_rows_own_unit 1 exampleCgroup ∅ freshChannel).2 _ outs s
      (by decide +kernel) hrun⟩

end UdpAnalyzer
