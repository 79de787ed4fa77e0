import UdpAnalyzer.Lib.JsonRoundTrip
import UdpAnalyzer.Loader.Channel
import UdpAnalyzer.Loader.Receive

/-! The loaders and the program that starts them: what a loader has attached is what the
analyzer reads on its standard output, and a loader that returns leaves nothing. -/

namespace UdpAnalyzer

/-- A printed text, with what `json.loads` makes of it. -/
def Printed.ofText (floatOf : Str → JsonFloat) (text : Str) : Printed where
  text := text
  json := (Json.loads floatOf text).elim (.error .jsonDecodeError) .ok

namespace Loader

variable {floatOf : Str → JsonFloat}

/-- The end of both lines. -/
def mapIdMember (mapId : UInt32) : Str :=
  quoted "map_id".toList ++ ':' :: (Json.dumps (.int mapId.toNat) ++ '}' :: ['\n'])

theorem channel_statusLine_eq (mapId : UInt32) :
    ChannelLoader.statusLine mapId = '{' :: mapIdMember mapId := by
  have hfront : "\x7b\"map_id\":".toList = '{' :: (quoted "map_id".toList ++ [':']) := by
    decide +kernel
  have hback : "\x7d\n".toList = ['}', '\n'] := by decide +kernel
  unfold ChannelLoader.statusLine mapIdMember
  rw [hfront, hback]
  simp only [List.cons_append, List.append_assoc, List.nil_append]
  rfl

theorem receive_statusLine_eq {backend : Str}
    (hbackend : backend = ReceiveLoader.fentry ∨ backend = ReceiveLoader.kprobe) (mapId : UInt32) :
    ReceiveLoader.statusLine backend mapId =
      '{' :: (quoted "backend".toList ++ ':' ::
        (Json.dumps (.str backend) ++ ',' :: mapIdMember mapId)) := by
  have hfront : "\x7b\"backend\":\"".toList ++ backend ++ "\",\"map_id\":".toList =
      '{' :: (quoted "backend".toList ++ ':' :: (quoted backend ++ ',' ::
        (quoted "map_id".toList ++ [':']))) := by
    rcases hbackend with rfl | rfl <;> decide +kernel
  have hback : "\x7d\n".toList = ['}', '\n'] := by decide +kernel
  unfold ReceiveLoader.statusLine mapIdMember
  rw [hfront, hback, Json.dumps]
  simp only [List.cons_append, List.append_assoc, List.nil_append]
  rfl

theorem scanMembers_mapIdMember (mapId : UInt32) {fuel : ℕ}
    (hfuel : 2 * (mapIdMember mapId).length ≤ fuel) :
    Json.scanMembers floatOf fuel (mapIdMember mapId) =
      some ([("map_id".toList, .int mapId.toNat)], ['\n']) := by
  unfold mapIdMember at hfuel ⊢
  simp only [List.length_append, List.length_cons] at hfuel
  obtain ⟨m, rfl⟩ : ∃ m, fuel = m + 1 := ⟨fuel - 1, by omega⟩
  exact Json.scanMembers_compact_last _ (Json.FloatFree.int _).reads (by omega) ['\n']

theorem loads_channel_status (mapId : UInt32) :
    Json.loads floatOf (ChannelLoader.statusLine mapId) =
      some (.obj [("map_id".toList, .int mapId.toNat)]) := by
  rw [channel_statusLine_eq]
  exact Json.loads_object_line rfl fun _ hfuel => scanMembers_mapIdMember mapId hfuel

theorem loads_receive_status {backend : Str}
    (hbackend : backend = ReceiveLoader.fentry ∨ backend = ReceiveLoader.kprobe) (mapId : UInt32) :
    Json.loads floatOf (ReceiveLoader.statusLine backend mapId) =
      some (.obj [("backend".toList, .str backend), ("map_id".toList, .int mapId.toNat)]) := by
  rw [receive_statusLine_eq hbackend]
  refine Json.loads_object_line rfl fun fuel hfuel => ?_
  simp only [List.length_append, List.length_cons] at hfuel
  obtain ⟨m, rfl⟩ : ∃ m, fuel = m + 1 := ⟨fuel - 1, by omega⟩
  rw [Json.scanMembers_compact_comma _ (Json.FloatFree.str backend).reads (by omega)]
  have hskip : Json.skipWhitespace (mapIdMember mapId) = mapIdMember mapId := rfl
  rw [hskip, scanMembers_mapIdMember mapId (by omega)]
  rfl

theorem parse_receive_status {backend : Str}
    (hbackend : backend = ReceiveLoader.fentry ∨ backend = ReceiveLoader.kprobe) {mapId : UInt32}
    (hpos : 0 < mapId) :
    parseReceiveLoaderStatus (.ofText floatOf (ReceiveLoader.statusLine backend mapId)) =
      .ok ⟨backend, mapId.toNat⟩ := by
  have hmembers : loaderMembers (.obj [("backend".toList, .str backend),
      ("map_id".toList, .int mapId.toNat)]) = .ok ⟨backend, mapId.toNat⟩ := by
    have hname : lookupLast "backend".toList [("backend".toList, Json.str backend),
        ("map_id".toList, .int mapId.toNat)] = some (.str backend) := by
      rfl
    have hmap : lookupLast "map_id".toList [("backend".toList, Json.str backend),
        ("map_id".toList, .int mapId.toNat)] = some (.int mapId.toNat) := by
      rfl
    simp only [loaderMembers, hname, Json.intMember, hmap]
    rfl
  have hpos' : ¬ (mapId.toNat : ℤ) ≤ 0 := by
    have hnat : 0 < mapId.toNat := hpos
    omega
  have hname : ¬ (backend ≠ "fentry".toList ∧ backend ≠ "kprobe".toList) := by
    rintro ⟨hfentry, hkprobe⟩
    exact hbackend.elim hfentry hkprobe
  have hjson : (Printed.ofText floatOf (ReceiveLoader.statusLine backend mapId)).json >>=
      loaderMembers = .ok ⟨backend, mapId.toNat⟩ := by
    unfold Printed.ofText
    rw [loads_receive_status hbackend]
    exact hmembers
  unfold parseReceiveLoaderStatus
  rw [hjson]
  exact if_neg (not_or.mpr ⟨hname, hpos'⟩)

theorem parse_channel_status (proto : ChannelProto) {mapId : UInt32} (hpos : 0 < mapId) :
    parseChannelLoaderStatus proto (.ofText floatOf (ChannelLoader.statusLine mapId)) =
      .ok mapId.toNat := by
  have hpos' : ¬ (mapId.toNat : ℤ) ≤ 0 := by
    have hnat : 0 < mapId.toNat := hpos
    omega
  unfold parseChannelLoaderStatus Printed.ofText
  rw [loads_channel_status]
  exact if_neg hpos'

/-! ### Runs -/

/-- Every call that can succeed does. -/
def Reply.grant (file : ObjectFile) (ids : ℕ → UInt32) : Reply
  | .openFile _ => .ok file
  | .load _ => .ok ids
  | .programs _ | .setAutoload .. | .attachTrace _ | .attachKprobe .. | .findMapByName ..
  | .mapInfo _ | .realloc | .destroyLink _ | .closeObject _ | .complain .. | .print _
  | .installHandlers | .stopping | .pause => .ok ()

/-- Every call that can fail does. -/
def Reply.refuse : Reply := fun _ => .error .einval

theorem documented_grant (file : ObjectFile) {ids : ℕ → UInt32} (hids : ∀ i, 0 < ids i)
    (op : LoaderCall) (s : Session) : Documented op (.grant file ids) s := by
  cases op with
  | load object =>
    intro ids' heq
    cases heq
    exact hids
  | _ => trivial

theorem documented_refuse (op : LoaderCall) (s : Session) : Documented op .refuse s := by
  cases op with
  | load object =>
    intro ids heq
    cases heq
  | _ => trivial

theorem idle_start : Idle [] ({} : Session) :=
  ⟨rfl, rfl, fun _ hp => absurd hp List.not_mem_nil, List.nodup_nil, rfl⟩

namespace ReceiveLoader

/-- The loader on a fresh process, after so many replies. -/
abbrev runMain (argv : List Str) (rounds : ℕ) (replies : List Reply) :=
  Script.run serve (main argv rounds {}) {} replies

/-- Whatever libbpf and the kernel answer, the receive loader only works on what is there and
leaves nothing when it returns. -/
theorem leaves_nothing {argv : List Str} {rounds : ℕ} {replies : List Reply}
    (hreplies : Along (Script.advance serve) (Script.Permits Documented) (main argv rounds {}, {})
      replies) :
    (∀ op, Script.Awaits op (runMain argv rounds replies) →
      Sound op (runMain argv rounds replies).2) ∧
    (∀ outcome state s, runMain argv rounds replies = (.done (outcome, state), s) →
      Ended argv outcome state s) := by
  have hmain : (main argv rounds).Ensures serve (terms (Waiting (argv.getLastD []))) (Ended argv)
      {} {} := main_ensures idle_start
  constructor
  · intro op hawaits
    exact (Script.Ensures.calls_of_awaits hmain hreplies hawaits).1
  · intro outcome state s hrun
    have hended := Script.Ensures.run hmain hreplies hrun
    exact hended

/-- While it waits, it has exactly one program attached, one its mode allows, and the
analyzer reads the backend and the map of this program. -/
theorem waits_attached (floatOf : Str → JsonFloat) {argv : List Str} {rounds : ℕ}
    {replies : List Reply}
    (hreplies : Along (Script.advance serve) (Script.Permits Documented) (main argv rounds {}, {})
      replies)
    (hpause : Script.Awaits .pause (runMain argv rounds replies)) :
    ∃ backend mapId, Allows (argv.getLastD []) backend ∧
      Serving backend mapId (runMain argv rounds replies).2 ∧
      parseReceiveLoaderStatus (.ofText floatOf (runMain argv rounds replies).2.stdout) =
        .ok ⟨backend, mapId.toNat⟩ := by
  have hmain : (main argv rounds).Ensures serve (terms (Waiting (argv.getLastD []))) (Ended argv)
      {} {} := main_ensures idle_start
  obtain ⟨backend, mapId, hallows, hserving, hstdout⟩ :=
    (Script.Ensures.calls_of_awaits hmain hreplies hpause).2 rfl
  refine ⟨backend, mapId, hallows, hserving, ?_⟩
  obtain ⟨_, _, _, _, _, _, hattached⟩ := hserving
  rw [hstdout]
  exact parse_receive_status (hallows.imp And.left And.left) hattached.positive

/-- What `udp_receive.bpf.c` is compiled to. -/
def receiveObject : ObjectFile where
  programs := [fentryProgram, kprobeProgram]
  maps := [deliveredMap, "udp_kprobe_cookies".toList]

/-- A kernel without fentry: the kprobe is attached instead. -/
def fallbackReplies : List Reply :=
  List.replicate 5 (.grant receiveObject fun _ => 7) ++ .refuse ::
    List.replicate 13 (.grant receiveObject fun _ => 8) ++ [.refuse]

theorem documented_fallback : ∀ r ∈ fallbackReplies, ∀ op s, Documented op r s := by
  intro r hr op s
  simp only [fallbackReplies, List.mem_append, List.mem_cons, List.mem_replicate, List.not_mem_nil,
    or_false] at hr
  rcases hr with (⟨-, rfl⟩ | rfl | ⟨-, rfl⟩) | rfl
  · exact documented_grant _ (fun _ => by decide) op s
  · exact documented_refuse op s
  · exact documented_grant _ (fun _ => by decide) op s
  · exact documented_refuse op s

def fallbackArgv : List Str := ["loader".toList, "object".toList, auto]

theorem leaves_nothing_fallback :
    (∀ op, Script.Awaits op (runMain fallbackArgv 1 fallbackReplies) →
      Sound op (runMain fallbackArgv 1 fallbackReplies).2) ∧
    (∀ outcome state s, runMain fallbackArgv 1 fallbackReplies = (.done (outcome, state), s) →
      Ended fallbackArgv outcome state s) :=
  leaves_nothing (Script.along_permits documented_fallback _)

theorem waits_attached_fallback :
    ∃ backend mapId, Allows (fallbackArgv.getLastD []) backend ∧
      Serving backend mapId (runMain fallbackArgv 1 fallbackReplies).2 ∧
      parseReceiveLoaderStatus
        (.ofText (fun _ => .nan) (runMain fallbackArgv 1 fallbackReplies).2.stdout) =
        .ok ⟨backend, mapId.toNat⟩ := by
  have hpause : Script.Awaits .pause (runMain fallbackArgv 1 fallbackReplies) := by decide +kernel
  exact waits_attached _ (Script.along_permits documented_fallback _) hpause

end ReceiveLoader

namespace ChannelLoader

abbrev runMain (proto : ChannelProto) (argv : List Str) (rounds : ℕ) (replies : List Reply) :=
  Script.run serve (main proto argv rounds {}) {} replies

/-- Whatever libbpf and the kernel answer, a channel loader only works on what is there; it
waits with every program of its file attached, once, and the analyzer reads the map of these
programs; it leaves nothing when it returns. -/
theorem attaches_all_or_nothing (floatOf : Str → JsonFloat) (proto : ChannelProto)
    {argv : List Str} {rounds : ℕ} {replies : List Reply}
    (hreplies : Along (Script.advance serve) (Script.Permits Documented)
      (main proto argv rounds {}, {}) replies) :
    (∀ op, Script.Awaits op (runMain proto argv rounds replies) →
      Sound op (runMain proto argv rounds replies).2) ∧
    (Script.Awaits .pause (runMain proto argv rounds replies) →
      ∃ mapId, Serving proto mapId (runMain proto argv rounds replies).2 ∧
        parseChannelLoaderStatus proto
          (.ofText floatOf (runMain proto argv rounds replies).2.stdout) = .ok mapId.toNat) ∧
    (∀ outcome state s, runMain proto argv rounds replies = (.done (outcome, state), s) →
      Ended argv outcome state s) := by
  have hmain : (main proto argv rounds).Ensures serve (terms (Waiting proto)) (Ended argv) {} {} :=
    main_ensures idle_start
  refine ⟨?_, ?_, ?_⟩
  · intro op hawaits
    exact (Script.Ensures.calls_of_awaits hmain hreplies hawaits).1
  · intro hpause
    obtain ⟨mapId, hserving, hstdout⟩ :=
      (Script.Ensures.calls_of_awaits hmain hreplies hpause).2 rfl
    refine ⟨mapId, hserving, ?_⟩
    obtain ⟨_, _, _, hattached⟩ := hserving
    rw [hstdout]
    exact parse_channel_status proto hattached.positive
  · intro outcome state s hrun
    have hended := Script.Ensures.run hmain hreplies hrun
    exact hended

/-- What `tcp_channel.bpf.c` is compiled to. -/
def tcpObject : ObjectFile where
  programs := ["tcp_v4_connect_exit".toList, "tcp_sendmsg_exit".toList, "tcp_recvmsg_exit".toList,
    "tcp_set_state_entry".toList]
  maps := ["tcp_channel_flows".toList]

theorem attaches_all_or_nothing_tcp :
    let replies := List.replicate 15 (Reply.grant tcpObject fun _ => 7) ++ [.refuse]
    let q := runMain .tcp ["loader".toList, "object".toList] 1 replies
    Script.Awaits .pause q ∧ (∀ op, Script.Awaits op q → Sound op q.2) ∧
      (Script.Awaits .pause q → ∃ mapId, Serving .tcp mapId q.2 ∧
        parseChannelLoaderStatus .tcp (.ofText (fun _ => .nan) q.2.stdout) = .ok mapId.toNat) ∧
      (∀ outcome state s, q = (.done (outcome, state), s) →
        Ended ["loader".toList, "object".toList] outcome state s) := by
  refine ⟨by decide +kernel, attaches_all_or_nothing _ .tcp (Script.along_permits ?_ _)⟩
  intro r hr op s
  rcases List.mem_append.mp hr with hr | hr
  · rw [(List.mem_replicate.mp hr).2]
    exact documented_grant _ (fun _ => by decide) op s
  · rw [List.mem_singleton.mp hr]
    exact documented_refuse op s

end ChannelLoader

end Loader

end UdpAnalyzer
