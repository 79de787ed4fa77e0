import UdpAnalyzer.DeltaLaw
import UdpAnalyzer.Lib.Files

/-! What the status of a row says. A catalog is resolved once, and a host that cannot be
resolved is left without addresses; the flows of its unit are then compared by the port
alone. The scheme of the URL is not compared with anything. -/

namespace UdpAnalyzer

/-! ### Resolving a catalog -/

/-- A row of `getaddrinfo`, as far as it is read. -/
structure AddressInfo where
  family : ℤ
  /-- `str(sockaddr[0])`, or nothing where `sockaddr` is empty. -/
  address : Option Str
  deriving DecidableEq, Repr

abbrev Resolver := Str → ℤ → Except PyExc (List AddressInfo)

/-- `AF_INET` and `AF_INET6`. -/
def inetFamilies : List ℤ := [2, 10]

/-- The addresses of one target; an `OSError` of the resolver is an empty answer. -/
def targetAddresses (resolver : Resolver) (target : ChannelTarget) : Except PyExc (List Str) :=
  match resolver target.host target.port with
  | .error (.osError _) => .ok []
  | .error e => .error e
  | .ok rows =>
    .ok (sortedSet ((rows.filter fun row => row.family ∈ inetFamilies).filterMap AddressInfo.address))

/-- `resolve_channel_targets`. -/
def resolveChannelTargets (targets : List ChannelTarget) (resolver : Resolver) :
    Except PyExc (List ChannelTarget) :=
  targets.mapM fun target => do
    let addresses ← targetAddresses resolver target
    return { target with addresses }

/-- `ChannelCatalog.resolve`. -/
def ChannelCatalog.resolve (c : ChannelCatalog) (resolver : Resolver) :
    Except PyExc ChannelCatalog := do
  let resolved ← resolveChannelTargets c.targets resolver
  return .ofTargets resolved

/-- The resolver returns the address for the target's host. -/
def Resolves (resolver : Resolver) (target : ChannelTarget) (ip : Str) : Prop :=
  ∃ rows, resolver target.host target.port = .ok rows ∧
    ∃ row ∈ rows, row.family ∈ inetFamilies ∧ row.address = some ip

theorem mem_targetAddresses {resolver : Resolver} {target : ChannelTarget} {addresses : List Str}
    (h : targetAddresses resolver target = .ok addresses) (ip : Str) :
    ip ∈ addresses ↔ Resolves resolver target ip := by
  unfold targetAddresses at h
  unfold Resolves
  cases hrows : resolver target.host target.port with
  | error e =>
    rw [hrows] at h
    have hempty : addresses = [] := by
      cases e <;> cases h
      rfl
    rw [hempty]
    exact ⟨fun hmem => absurd hmem List.not_mem_nil, fun ⟨_, hrows, _⟩ => by cases hrows⟩
  | ok rows =>
    rw [hrows] at h
    cases h
    rw [mem_sortedSet, List.mem_filterMap]
    simp only [List.mem_filter, decide_eq_true_eq]
    constructor
    · rintro ⟨row, ⟨hrow, hfamily⟩, hip⟩
      exact ⟨rows, rfl, row, hrow, hfamily, hip⟩
    · rintro ⟨rows', hrows', row, hrow, hfamily, hip⟩
      cases hrows'
      exact ⟨row, ⟨hrow, hfamily⟩, hip⟩

/-- The target a catalog keeps of a unit. -/
def configuredTarget (targets : List ChannelTarget) (unit : Str) : Option ChannelTarget :=
  targets.reverse.find? fun target => target.unit = unit

/-- A resolved catalog keeps the same target of a unit, with the addresses of its host. -/
theorem byUnit_resolve {targets : List ChannelTarget} {resolver : Resolver}
    {catalog : ChannelCatalog}
    (h : (ChannelCatalog.ofTargets targets).resolve resolver = .ok catalog) (unit : Str) :
    match configuredTarget targets unit with
    | none => catalog.byUnit.get? unit = none
    | some target => ∃ addresses, targetAddresses resolver target = .ok addresses ∧
        catalog.byUnit.get? unit = some { target with addresses } := by
  obtain ⟨resolved, hresolved, h⟩ := bind_eq_ok h
  cases h
  have hpairs := List.rel_reverse (mapM_eq_ok_iff.mp hresolved)
  rw [ChannelCatalog.byUnit_ofTargets]
  unfold configuredTarget
  change List.Forall₂ _ targets.reverse resolved.reverse at hpairs
  generalize targets.reverse = backwards at hpairs ⊢
  generalize resolved.reverse = backwards' at hpairs ⊢
  induction hpairs with
  | nil => rfl
  | @cons target target' rest rest' hhead _ ih =>
    obtain ⟨addresses, haddresses, hmade⟩ := bind_eq_ok hhead
    cases hmade
    by_cases hunit : target.unit = unit
    · rw [List.find?_cons_of_pos (by simpa using hunit), List.find?_cons_of_pos (by simpa using hunit)]
      exact ⟨addresses, haddresses, rfl⟩
    · rw [List.find?_cons_of_neg (by simpa using hunit), List.find?_cons_of_neg (by simpa using hunit)]
      exact ih

/-! ### Rows -/

/-- One real endpoint of the socket: its peer, or the address it is bound to. -/
def IsEndpoint (key : FlowKey) (ip : Str) (port : ℤ) : Prop :=
  (ipv4FromBpfInt key.dstIp4 = .ok ip ∧ port = key.dstPort) ∨
    (ipv4FromBpfInt key.srcIp4 = .ok ip ∧ port = key.srcPort)

/-- The peer of a flow is there as a whole, or it is missing as a whole. -/
def WholePeer (key : FlowKey) : Prop := key.dstIp4 = 0 ↔ key.dstPort = 0

theorem tcpChannel_endpoint {key : FlowKey} {ip : Str} {port : ℤ}
    (h : tcpChannel.endpoint key = .ok (ip, port)) : IsEndpoint key ip port := by
  obtain ⟨dstIp, hdst, h⟩ := bind_eq_ok h
  cases h
  exact .inl ⟨hdst, rfl⟩

theorem udpChannel_endpoint {key : FlowKey} {ip : Str} {port : ℤ}
    (h : udpChannel.endpoint key = .ok (ip, port)) (hpeer : WholePeer key) :
    IsEndpoint key ip port := by
  obtain ⟨endpointIp, hip, h⟩ := bind_eq_ok h
  cases h
  by_cases hdst : key.dstIp4 = 0
  · right
    have hport : key.dstPort = 0 := hpeer.mp hdst
    rw [hdst] at hip
    rw [hport]
    exact ⟨hip, rfl⟩
  · left
    have hport : key.dstPort ≠ 0 := fun h0 => hdst (hpeer.mpr h0)
    rw [if_pos hdst] at hip
    rw [if_pos hport]
    exact ⟨hip, rfl⟩

/-- A flow of a known unit matches by its port, and by its address where there are any to
compare it with. -/
theorem matchFlow_status_matched {c : ChannelCatalog} {unit : Str} {target : ChannelTarget}
    (h : c.byUnit.get? unit = some target) (ip : Str) (port : ℤ) :
    ((c.matchFlow unit ip port).status = .matched ↔
      port = target.port ∧ (target.addresses ≠ [] → ip ∈ target.addresses)) ∧
    ((c.matchFlow unit ip port).status ≠ .matched →
      (c.matchFlow unit ip port).status = .unexpectedFlow) := by
  unfold ChannelCatalog.matchFlow
  rw [h]
  dsimp only
  by_cases hport : target.port ≠ port
  · rw [if_pos hport]
    exact ⟨⟨nofun, fun hall => absurd hall.1.symm hport⟩, fun _ => rfl⟩
  · rw [if_neg hport]
    have hport : port = target.port := (not_not.mp hport).symm
    by_cases hip : target.addresses ≠ [] ∧ ip ∉ target.addresses
    · rw [if_pos hip]
      exact ⟨⟨nofun, fun hall => absurd (hall.2 hip.1) hip.2⟩, fun _ => rfl⟩
    · rw [if_neg hip]
      refine ⟨⟨fun _ => ⟨hport, fun hne => ?_⟩, fun _ => rfl⟩, fun hne => absurd rfl hne⟩
      by_contra hmem
      exact hip ⟨hne, hmem⟩

/-- What the status of a row says of the target of its unit. -/
structure Verdict (resolver : Resolver) (target : ChannelTarget) (row : ChannelSample) : Prop where
  matched_iff : row.status = .matched ↔ row.dstPort = target.port ∧
    ((∃ ip, Resolves resolver target ip) → Resolves resolver target row.dstIp)
  unexpected : row.status ≠ .matched → row.status = .unexpectedFlow
  url : row.url = target.url

/-- The verdict on a row of a unit: of the target the catalog has of it, or that there is
none. -/
def JudgedBy (targets : List ChannelTarget) (resolver : Resolver) (row : ChannelSample) : Prop :=
  match configuredTarget targets row.unit with
  | none => row.status = .unknownUnit
  | some target => Verdict resolver target row

theorem flowSample_judged {kind : ChannelKind} {targets : List ChannelTarget} {resolver : Resolver}
    {catalog : ChannelCatalog}
    (hresolve : (ChannelCatalog.ofTargets targets).resolve resolver = .ok catalog)
    {input : ChannelInput} {bucketNs elapsed : ℤ} {entry : FlowEntry} {delta : FlowCounters}
    {unit : Str} {row : ChannelSample}
    (h : ChannelCollector.flowSample kind catalog input bucketNs elapsed entry delta unit = .ok row) :
    JudgedBy targets resolver row := by
  have hunit := byUnit_resolve hresolve unit
  obtain ⟨⟨ip, port⟩, hend, h⟩ := bind_eq_ok h
  obtain ⟨srcIp, hsrc, h⟩ := bind_eq_ok h
  obtain ⟨ifname, -, h⟩ := bind_eq_ok h
  cases h
  show match configuredTarget targets unit with
    | none => _
    | some target => _
  cases hconfigured : configuredTarget targets unit with
  | none =>
    rw [hconfigured] at hunit
    exact (ChannelCatalog.matchFlow_status_unknown _ _ _ _).mpr hunit
  | some target =>
    rw [hconfigured] at hunit
    obtain ⟨addresses, haddresses, hget⟩ := hunit
    have hmem := mem_targetAddresses haddresses
    have hknown : addresses ≠ [] ↔ ∃ ip, Resolves resolver target ip := by
      rw [ne_eq, List.eq_nil_iff_forall_not_mem, not_forall]
      exact exists_congr fun ip => not_not.trans (hmem ip)
    obtain ⟨hmatched, hunexpected⟩ := matchFlow_status_matched hget ip port
    refine ⟨?_, hunexpected, ?_⟩
    · rw [← hknown, ← hmem]
      exact hmatched
    · show ((catalog.matchFlow unit ip port).target.map ChannelTarget.url).getD [] = target.url
      rw [ChannelCatalog.matchFlow_target, hget]
      rfl

/-! ### Runs -/

namespace ChannelCollector

/-- The collector after some checkpoints, whether they completed or not. -/
def after (kind : ChannelKind) (c : ChannelCollector) (inputs : List ChannelInput) :
    ChannelCollector :=
  inputs.foldl (fun c input => (c.readCheckpoint kind input).2) c

/-- No checkpoint changes the catalog, the filter or the interval. -/
theorem readCheckpoint_config (kind : ChannelKind) (c : ChannelCollector) (input : ChannelInput) :
    (c.readCheckpoint kind input).2.catalog = c.catalog := by
  have halive : (c.ensureAlive kind input).2.catalog = c.catalog := by
    unfold ensureAlive
    split
    · rfl
    · rfl
    · split
      · rfl
      · split <;> rfl
  unfold readCheckpoint
  split
  · next h =>
    rw [h] at halive
    exact halive
  · next h =>
    rw [h] at halive
    unfold readFlows
    dsimp only
    split <;> exact halive

theorem after_catalog (kind : ChannelKind) (c : ChannelCollector) (inputs : List ChannelInput) :
    (c.after kind inputs).catalog = c.catalog := by
  induction inputs generalizing c with
  | nil => rfl
  | cons input rest ih => exact (ih _).trans (readCheckpoint_config kind c input)

end ChannelCollector

/-- For every catalog, every answer of the resolver and every run of either collector, a row
is judged by the target of its unit: it is matched exactly when its port is the URL's and,
if the resolver returned any address, its address is one of them. The two come from one
end of the socket where the peer is there or missing as a whole. -/
theorem matched_rows_are_configured (kind : ChannelKind)
    (hkind : kind = tcpChannel ∨ kind = udpChannel) (targets : List ChannelTarget)
    (resolver : Resolver) (catalog : ChannelCatalog)
    (hresolve : (ChannelCatalog.ofTargets targets).resolve resolver = .ok catalog)
    (c₀ c' : ChannelCollector) (hcatalog : c₀.catalog = catalog) (inputs : List ChannelInput)
    (last : ChannelInput) (ems : List FlowEmission)
    (h : (c₀.after kind inputs).readCheckpoint kind last = (.ok ems, c')) (em : FlowEmission)
    (hem : em ∈ ems) (row : ChannelSample) (hrow : row ∈ em.rows) :
    JudgedBy targets resolver row ∧
      ∃ entry ∈ listed last.dump, describesFlow kind entry row ∧
        (kind = tcpChannel ∨ WholePeer entry.key → IsEndpoint entry.key row.dstIp row.dstPort) := by
  have hread := ChannelCollector.readCheckpoint_spec h
  have hemit : CounterLoop.EmitSpec (ChannelCollector.emitFlow kind
      { c₀.after kind inputs with pidUnits := ∅, lastCheckpointNs := some last.nowNs } last
      (bucketStartNs last.nowNs (c₀.after kind inputs).bucketMs)
      (elapsedMs (c₀.after kind inputs).bucketMs (c₀.after kind inputs).lastCheckpointNs last.nowNs))
      (fun _ => True)
      (fun entry _ built rows => describesFlow kind entry built ∧ JudgedBy targets resolver built ∧
        ∀ row ∈ rows, row = built) := by
    intro entry delta pidUnits built rows pidUnits' _ hemit
    obtain ⟨unit, -, hsample, rfl⟩ := ChannelCollector.emitFlow_built hemit
    have hcatalog' : (c₀.after kind inputs).catalog = catalog :=
      (ChannelCollector.after_catalog kind c₀ inputs).trans hcatalog
    dsimp only at hsample
    rw [hcatalog'] at hsample
    refine ⟨⟨(ChannelCollector.flowSample_spec hsample).1, flowSample_judged hresolve hsample, ?_⟩,
      trivial⟩
    intro row hrow
    exact List.mem_singleton.mp (List.mem_of_mem_filter hrow)
  obtain ⟨hdone, -⟩ := ChannelCollector.readFlows_spec hemit trivial hread
  obtain ⟨entry, delta, hentry, -, -, hdescribes, hjudged, hrows⟩ := hdone.built em hem
  obtain rfl := hrows row hrow
  refine ⟨hjudged, entry, hentry, hdescribes, fun hpeer => ?_⟩
  have hend := hdescribes.2.1
  rcases hkind with rfl | rfl
  · exact tcpChannel_endpoint hend
  · refine udpChannel_endpoint hend (hpeer.resolve_left fun hsame => ?_)
    exact absurd (congrArg ChannelKind.ipProto hsame) (by decide)

/-! A flow of `radio.service` that grows between two checkpoints, with a resolver that
knows its host and one that does not. -/

def radioTarget (scheme : String) : ChannelTarget where
  channel := "radio".toList
  unit := "radio.service".toList
  url := scheme.toList ++ "://radio.example:8000/".toList
  scheme := scheme.toList
  host := "radio.example".toList
  port := 8000
  path := "/".toList

def knownHost : Resolver := fun _ _ => .ok [⟨2, some "203.0.113.10".toList⟩]

def unknownHost : Resolver := fun _ _ => .error .osError

def radioInput (key : FlowKey) (nowNs rxBytes : ℤ) : ChannelInput where
  nowNs := nowNs
  dump := .ok [⟨key, ⟨0, rxBytes, 0, 1, 0, 0, 0, 1234, 0, 1⟩⟩]
  unitForPid _ := .ok "radio.service".toList
  ifIndexToName _ := .error .osError

/-- A connection from `10.0.0.10:40000` to a host. -/
def radioFlow (dstIp4 : ℤ) : FlowKey := ⟨7, 0x0A00000A, dstIp4, 40000, 8000, 2, 6, 77⟩

/-- A socket bound to port 8000 whose peer has an address and no port. -/
def portlessPeer : FlowKey := ⟨7, 0x0A00000A, 0x0A7100CB, 8000, 0, 2, 17, 77⟩

def radioCollector : ChannelCollector where
  catalog := .ofTargets [{ radioTarget "http" with addresses := ["203.0.113.10".toList] }]
  bucketMs := 1000

/-- The rows of the second checkpoint. -/
def radioRows (kind : ChannelKind) (target : ChannelTarget) (resolver : Resolver) (key : FlowKey) :
    Except PyExc (List ChannelSample) := do
  let catalog ← (ChannelCatalog.ofTargets [target]).resolve resolver
  let collector : ChannelCollector := { catalog, bucketMs := 1000 }
  let ems ← ((collector.after kind [radioInput key 5000000000 1000]).readCheckpoint kind
    (radioInput key 8000000000 4000)).1
  return ems.flatMap Emission.rows

theorem matched_rows_are_configured_radio :
    ∃ ems c', (radioCollector.after tcpChannel
        [radioInput (radioFlow 0x0A7100CB) 5000000000 1000]).readCheckpoint tcpChannel
        (radioInput (radioFlow 0x0A7100CB) 8000000000 4000) = (.ok ems, c') ∧
      ems.flatMap Emission.rows ≠ [] ∧
      ∀ em ∈ ems, ∀ row ∈ em.rows, JudgedBy [radioTarget "http"] knownHost row ∧
        ∃ entry ∈ listed (radioInput (radioFlow 0x0A7100CB) 8000000000 4000).dump,
          describesFlow tcpChannel entry row ∧ IsEndpoint entry.key row.dstIp row.dstPort := by
  refine ⟨_, _, rfl, by decide +kernel, fun em hem row hrow => ?_⟩
  obtain ⟨hjudged, entry, hentry, hdescribes, hend⟩ := matched_rows_are_configured tcpChannel
    (.inl rfl) [radioTarget "http"] knownHost _ rfl radioCollector _ rfl
    [radioInput (radioFlow 0x0A7100CB) 5000000000 1000]
    (radioInput (radioFlow 0x0A7100CB) 8000000000 4000) _ rfl em hem row hrow
  exact ⟨hjudged, entry, hentry, hdescribes, hend (.inl rfl)⟩

/-- Rows that are matched without being the configured flow: with any address where the host
was not resolved, over TCP for a URL of UDP, and with the address of the peer and the port
the socket is bound to. -/
theorem matched_rows_not_configured :
    (∃ row, radioRows tcpChannel (radioTarget "http") unknownHost (radioFlow 0x717100CB) = .ok [row] ∧
      row.status = .matched ∧ ¬ Resolves unknownHost (radioTarget "http") row.dstIp) ∧
    (∃ row, radioRows tcpChannel (radioTarget "udp") knownHost (radioFlow 0x0A7100CB) = .ok [row] ∧
      row.status = .matched ∧ row.layer = .tcpChannel ∧ (radioTarget "udp").scheme = "udp".toList) ∧
    (∃ row, radioRows udpChannel (radioTarget "udp") knownHost portlessPeer = .ok [row] ∧
      row.status = .matched ∧ ¬ IsEndpoint portlessPeer row.dstIp row.dstPort) := by
  refine ⟨⟨_, rfl, rfl, ?_⟩, ⟨_, rfl, rfl, rfl, rfl⟩, ⟨_, rfl, rfl, ?_⟩⟩
  · rintro ⟨_, hrows, _⟩
    cases hrows
  · rintro (⟨_, hport⟩ | ⟨hip, _⟩)
    · exact absurd hport (by decide)
    · exact absurd hip (by decide +kernel)

end UdpAnalyzer
