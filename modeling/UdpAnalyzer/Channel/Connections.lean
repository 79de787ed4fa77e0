import UdpAnalyzer.Channel.EndToEnd

/-! The `connections` column of the TCP channel collector. A successful connect is
counted by the hook that creates the flow in the map, and the first dump that lists
a flow only seeds its baseline. So a connect is reported exactly when the flow was
listed by the checkpoint before it. -/

namespace UdpAnalyzer

variable {n : ℕ}

/-- Whether an event is a successful `tcp_v4_connect` accounted to a key, as a number. -/
def connectsTo (key : ChannelKey) (m : FlowMap n) : KernelEvent tcpProgram n → ℕ
  | .hook ctx (TcpCall.connectExit (some sk) ret) =>
    if ret = 0 ∧ fillTcpKey sk ctx.cgroupId = some key ∧ (key ∈ m ∨ ctx.room = true) then 1 else 0
  | _ => 0

/-- The successful connects accounted to a key while the events happen. -/
def connects (key : ChannelKey) : FlowMap n → List (KernelEvent tcpProgram n) → ℕ
  | _, [] => 0
  | m, ev :: rest => connectsTo key m ev + connects key (ev.step m) rest

/-- What a hook posts to a counter of a flow: its charge, if it has one for it. -/
theorem posted_hook {P : ChannelProgram} (m : FlowMap n) (ctx : HookContext n) (call : P.Call)
    (key : ChannelKey) (f : FlowField) :
    posted (KernelEvent.postings m (.hook ctx call)) key f =
      match P.charged ctx call with
      | none => 0
      | some (k, charge) => if k = key ∧ (key ∈ m ∨ ctx.room = true) then charge.amount f else 0 := by
  unfold KernelEvent.postings
  dsimp only
  cases P.charged ctx call with
  | none => rfl
  | some p =>
    obtain ⟨k, charge⟩ := p
    dsimp only
    by_cases hk : k = key
    · subst hk
      by_cases hadmitted : k ∈ m ∨ ctx.room = true
      · rw [if_pos hadmitted, if_pos (And.intro rfl hadmitted)]
        show (if k = k then charge.amount f else 0) + 0 = _
        rw [if_pos rfl, add_zero]
      · rw [if_neg hadmitted, if_neg fun h : k = k ∧ _ => hadmitted h.2]
        rfl
    · rw [if_neg fun h : k = key ∧ _ => hk h.1]
      split_ifs
      · show (if k = key then charge.amount f else 0) + 0 = _
        rw [if_neg hk, add_zero]
      · rfl

/-- A charge without connections posts none. -/
theorem posted_charge_connections {m : FlowMap n} {ctx : HookContext n} {call : TcpCall}
    {sk : Option Sock} {charge : Charge} (hcharge : charge.connections = 0)
    (hcall : tcpCharged ctx call = tcpCharge ctx sk charge ∨ tcpCharged ctx call = none)
    (key : ChannelKey) :
    posted (KernelEvent.postings m (.hook ctx call : KernelEvent tcpProgram n)) key
      .connections = 0 := by
  have hamount : charge.amount .connections = 0 := by
    show ((charge.connections.toNat : ℕ) : ℤ) = 0
    rw [hcharge]
    rfl
  have hcharged : tcpProgram.charged ctx call = tcpCharged ctx call := rfl
  rw [posted_hook, hcharged]
  rcases hcall with hcall | hcall
  · rw [hcall]
    cases htcp : tcpCharge ctx sk charge with
    | none => rfl
    | some p =>
      obtain ⟨k, charge'⟩ := p
      obtain ⟨rfl, -⟩ := tcpCharge_eq_some htcp
      dsimp only
      rw [hamount, ite_self]
  · rw [hcall]

theorem posted_connectExit (m : FlowMap n) (ctx : HookContext n) (sk : Option Sock)
    (ret : BitVec 32) (key : ChannelKey) :
    posted (KernelEvent.postings m (.hook ctx (TcpCall.connectExit sk ret) : KernelEvent tcpProgram n))
      key .connections = connectsTo key m (.hook ctx (TcpCall.connectExit sk ret)) := by
  have hcharged : tcpProgram.charged ctx (TcpCall.connectExit sk ret) =
      if ret = 0 then tcpCharge ctx sk { connections := 1 } else none := rfl
  rw [posted_hook, hcharged]
  by_cases hret : ret = 0
  · rw [if_pos hret]
    cases sk with
    | none => rfl
    | some s =>
      unfold tcpCharge
      cases hfill : fillTcpKey s ctx.cgroupId with
      | none => simp [connectsTo, hfill]
      | some k =>
        have hone : Charge.amount { connections := 1 } .connections = 1 := rfl
        simp only [connectsTo, Option.bind_some, hfill, Option.map_some, Option.some.injEq, hret,
          true_and, hone]
        split_ifs <;> rfl
  · rw [if_neg hret]
    cases sk with
    | none => rfl
    | some s =>
      have hzero : connectsTo key m (.hook ctx (TcpCall.connectExit (some s) ret)) = 0 :=
        if_neg fun h => hret h.1
      rw [hzero]
      rfl

/-- What an event posts to the connections of a flow is the connect it accounts. -/
theorem posted_connections (m : FlowMap n) (ev : KernelEvent tcpProgram n) (key : ChannelKey) :
    posted (KernelEvent.postings m ev) key .connections = connectsTo key m ev := by
  match ev with
  | .evict k => rfl
  | .hook ctx (TcpCall.connectExit sk ret) => exact posted_connectExit m ctx sk ret key
  | .hook ctx (TcpCall.sendmsgExit sk ret) =>
    have hcall : tcpCharged ctx (.sendmsgExit sk ret) = _ ∨ _ = _ := ite_eq_or_eq _ _ _
    exact posted_charge_connections rfl hcall key
  | .hook ctx (TcpCall.recvmsgExit sk flags ret) =>
    have hcall : tcpCharged ctx (.recvmsgExit sk flags ret) = _ ∨ _ = _ := ite_eq_or_eq _ _ _
    exact posted_charge_connections rfl hcall key
  | .hook ctx (TcpCall.setStateEntry sk state) => rfl

theorem accounted_connections (m : FlowMap n) (events : List (KernelEvent tcpProgram n))
    (key : ChannelKey) : accounted m events key .connections = connects key m events := by
  induction events generalizing m with
  | nil => rfl
  | cons ev rest ih =>
    have hstep : accounted m (ev :: rest) key .connections =
        posted (KernelEvent.postings m ev) key .connections +
          accounted (ev.step m) rest key .connections := by
      unfold accounted
      rw [ledger, posted_append]
    rw [hstep, posted_connections, ih, connects, Nat.cast_add]

/-- Every connect of the interval finds its flow listed by the checkpoint before. -/
def ListedBeforeConnect (key : ChannelKey) (m : FlowMap n) (i : Interval tcpProgram n) : Prop :=
  key ∈ m ∨ connects key m i.events = 0

instance (key : ChannelKey) (m : FlowMap n) (i : Interval tcpProgram n) :
    Decidable (ListedBeforeConnect key m i) :=
  inferInstanceAs (Decidable (_ ∨ _))

/-- The successful connects accounted to a key after the first checkpoint. -/
def connectsSince (key : ChannelKey) (first : Interval tcpProgram n)
    (rest : List (Interval tcpProgram n)) : ℕ :=
  connects key (first.mapAfter ∅) (rest.flatMap Interval.events)

theorem mapOf_cons {P : ChannelProgram} (first : Interval P n) (rest : List (Interval P n)) :
    mapOf (first :: rest) = rest.foldl (fun m i => i.mapAfter m) (first.mapAfter ∅) := by
  unfold mapOf
  rw [List.flatMap_cons, List.foldl_append]
  show (rest.flatMap Interval.events).foldl KernelEvent.step (first.mapAfter ∅) = _
  generalize first.mapAfter ∅ = m
  induction rest generalizing m with
  | nil => rfl
  | cons i rest ih =>
    rw [List.flatMap_cons, List.foldl_append, List.foldl_cons]
    exact ih _

theorem connectsSince_concat (key : ChannelKey) (first : Interval tcpProgram n)
    (rest : List (Interval tcpProgram n)) (last : Interval tcpProgram n) :
    (connectsSince key first (rest ++ [last]) : ℤ) =
      connectsSince key first rest + connects key (mapOf (first :: rest)) last.events := by
  unfold connectsSince
  rw [← accounted_connections, ← accounted_connections, ← accounted_connections,
    List.flatMap_append, List.flatMap_singleton, accounted_append]
  congr 2
  unfold mapOf
  rw [List.flatMap_cons, List.foldl_append]
  rfl

/-- What the last checkpoint of a run reports of the connects of its interval: all of
them, or none when the flow was not listed before. -/
theorem reported_connections {intervals : List (Interval tcpProgram n)}
    {last : Interval tcpProgram n} {c₀ : ChannelCollector} (hne : intervals ≠ [])
    (hfresh : c₀.Fresh) (hfilter : c₀.sampleFilter = {}) (hwrap : NoWrap (intervals ++ [last]))
    {key : ChannelKey} (hevict : .evict key ∉ last.events) {outs : List (List FlowEmission)}
    {s : FlowMap n × ChannelCollector}
    (h : completedRun Interval.step (intervals ++ [last]) (∅, c₀) = some (outs, s)) :
    ∃ outs' out s', outs = outs' ++ [out] ∧
      completedRun Interval.step intervals (∅, c₀) = some (outs', s') ∧
      reported out key .connections =
        if key ∈ mapOf intervals then (connects key (mapOf intervals) last.events : ℤ) else 0 := by
  obtain ⟨outs', out, s', rfl, hrun, hreported⟩ := completedRun_reported hfresh hfilter h
  refine ⟨outs', out, s', rfl, hrun, ?_⟩
  rw [hreported key .connections, if_neg hne]
  split_ifs with hkey
  · have hgain : Snapshot.gain (mapOf intervals).counts (last.mapAfter (mapOf intervals)).counts key
        .connections = accounted (mapOf intervals) last.events key .connections :=
      gain_eq_accounted (noWrap_concat hwrap).2 hkey hevict _
    rw [hgain, accounted_connections]
  · apply Snapshot.gain_of_none
    by_contra hsome
    exact hkey (FlowMap.counts_ne_none.mp hsome)

/-- Over a run without evictions of a flow the `connections` column reports at most
the connects accounted since the first checkpoint, and just these when no connect
comes before the flow is listed. -/
theorem reportedIn_connections {first : Interval tcpProgram n} {rest : List (Interval tcpProgram n)}
    {c₀ : ChannelCollector} (hfresh : c₀.Fresh) (hfilter : c₀.sampleFilter = {})
    (hwrap : NoWrap (first :: rest)) {key : ChannelKey}
    (hevict : ∀ i ∈ first :: rest, .evict key ∉ i.events) {outs : List (List FlowEmission)}
    {s : FlowMap n × ChannelCollector}
    (h : completedRun Interval.step (first :: rest) (∅, c₀) = some (outs, s)) :
    reportedIn outs key .connections ≤ connectsSince key first rest ∧
      (reportedIn outs key .connections = connectsSince key first rest ↔
        Along (fun m i => i.mapAfter m) (ListedBeforeConnect key) (first.mapAfter ∅) rest) := by
  induction rest using List.reverseRecOn generalizing outs s with
  | nil =>
    have hfirst : completedRun Interval.step ([] ++ [first]) (∅, c₀) = some (outs, s) := h
    obtain ⟨outs', out, s', rfl, hrun, hreported⟩ := completedRun_reported hfresh hfilter hfirst
    cases hrun
    have hzero : reportedIn ([] ++ [out]) key .connections = 0 := by
      rw [reportedIn_concat, hreported key .connections, if_pos rfl]
      rfl
    rw [hzero]
    exact ⟨le_rfl, iff_of_true rfl trivial⟩
  | append_singleton rest last ih =>
    rw [← List.cons_append] at h hwrap hevict
    have hlast := hevict last (List.mem_append_right _ List.mem_cons_self)
    obtain ⟨outs', out, s', rfl, hrun, hreported⟩ :=
      reported_connections (List.cons_ne_nil _ _) hfresh hfilter hwrap hlast h
    obtain ⟨hle, hiff⟩ := ih (noWrap_concat hwrap).1
      (fun i hi => hevict i (List.mem_append_left _ hi)) hrun
    rw [along_append, ← hiff, reportedIn_concat, connectsSince_concat, hreported, ← mapOf_cons]
    have hcount : (0 : ℤ) ≤ connects key (mapOf (first :: rest)) last.events := Int.natCast_nonneg _
    have hstep : Along (fun m i => i.mapAfter m) (ListedBeforeConnect key) (mapOf (first :: rest))
        [last] ↔ key ∈ mapOf (first :: rest) ∨
          (connects key (mapOf (first :: rest)) last.events : ℤ) = 0 := by
      show (_ ∨ _) ∧ True ↔ _
      rw [and_true, Nat.cast_eq_zero]
    rw [hstep]
    split_ifs with hkey
    · refine ⟨by omega, fun heq => ⟨by omega, .inl hkey⟩, fun heq => by omega⟩
    · refine ⟨by omega, fun heq => ⟨by omega, .inr (by omega)⟩, ?_⟩
      rintro ⟨heq, hmem | hnone⟩
      · exact absurd hmem hkey
      · omega

/-- The `connections` column reports the connects exactly when none of them comes
before its flow was listed. -/
theorem connections_reported_iff (n : ℕ) (first : Interval tcpProgram n)
    (rest : List (Interval tcpProgram n)) (c₀ : ChannelCollector) (outs : List (List FlowEmission))
    (s : FlowMap n × ChannelCollector) (key : ChannelKey) (hfresh : c₀.Fresh)
    (hfilter : c₀.sampleFilter = {}) (hwrap : NoWrap (first :: rest))
    (hevict : ∀ i ∈ first :: rest, .evict key ∉ i.events)
    (h : completedRun Interval.step (first :: rest) (∅, c₀) = some (outs, s)) :
    reportedIn outs key .connections = connectsSince key first rest ↔
      Along (fun m i => i.mapAfter m) (ListedBeforeConnect key) (first.mapAfter ∅) rest :=
  (reportedIn_connections hfresh hfilter hwrap hevict h).2

/-! A collector that polls before the service connects: the flow is created by the
connect, listed twice, and its row says that there was no connection. -/

def idleInterval : Interval tcpProgram 2 := serviceInterval tcpProgram 1000000000 []

theorem connect_not_reported :
    ∃ outs s, completedRun Interval.step [idleInterval, connectInterval, receiveInterval]
        (∅, freshChannel) = some (outs, s) ∧
      serviceKey ∈ mapOf [idleInterval, connectInterval] ∧
      serviceKey ∈ mapOf [idleInterval, connectInterval, receiveInterval] ∧
      connectsSince serviceKey idleInterval [connectInterval, receiveInterval] = 1 ∧
      reportedIn outs serviceKey .connections = 0 := by
  have hrun : (completedRun Interval.step [idleInterval, connectInterval, receiveInterval]
      (∅, freshChannel)).map (fun p => reportedIn p.1 serviceKey .connections) = some 0 := by
    decide +kernel
  obtain ⟨⟨outs, s⟩, hrun, hreported⟩ := Option.map_eq_some_iff.mp hrun
  exact ⟨outs, s, hrun, by decide +kernel, by decide +kernel, by decide +kernel, hreported⟩

/-- A flow that is listed before a connect of its socket. -/
def reconnectInterval : Interval tcpProgram 2 :=
  serviceInterval tcpProgram 4000000000
    [.hook (serviceContext 0 9) (TcpCall.connectExit (some serviceSock) 0)]

theorem connections_reported_iff_reconnect :
    ∃ outs s, completedRun Interval.step [connectInterval, receiveInterval, reconnectInterval]
        (∅, freshChannel) = some (outs, s) ∧
      reportedIn outs serviceKey .connections = 1 := by
  have hsome : (completedRun Interval.step [connectInterval, receiveInterval, reconnectInterval]
      (∅, freshChannel)).isSome = true := by decide +kernel
  obtain ⟨⟨outs, s⟩, hrun⟩ := Option.isSome_iff_exists.mp hsome
  have hevict : ∀ i ∈ [connectInterval, receiveInterval, reconnectInterval],
      .evict serviceKey ∉ i.events := by
    intro i hi
    simp only [List.mem_cons, List.not_mem_nil, or_false] at hi
    rcases hi with rfl | rfl | rfl
    · rintro (_ | ⟨_, _ | ⟨_, _ | _⟩⟩)
    · rintro (_ | ⟨_, _ | _⟩)
    · rintro (_ | ⟨_, _ | _⟩)
  have hiff := connections_reported_iff 2 connectInterval [receiveInterval, reconnectInterval]
    freshChannel outs s serviceKey ⟨rfl, rfl⟩ rfl (by decide +kernel) hevict hrun
  refine ⟨outs, s, hrun, (hiff.mpr (by decide +kernel)).trans ?_⟩
  decide +kernel

end UdpAnalyzer
