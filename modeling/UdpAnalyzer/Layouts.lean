import UdpAnalyzer.Channel.Decode
import UdpAnalyzer.Ingress.Decode

/-! The parsers and the kernel's structures agree. Each structure is presented as its bytes in
memory or as an object of its members, and its parser returns the fields. -/

namespace UdpAnalyzer

/-- Two presented keys with the identities of what a parser returns for them. -/
def SameIdentity {K I : Type} (parse : Json → Except PyExc K) (identity : K → I) (raw raw' : Json) :
    Prop :=
  ∃ key key', parse raw = .ok key ∧ parse raw' = .ok key' ∧ identity key = identity key'

theorem sameIdentity_iff {S K I : Type} {parse : Json → Except PyExc K} {identity : K → I}
    {decode : S → K} (hinjective : Function.Injective fun s => identity (decode s)) {s s' : S}
    {raw raw' : Json} (hparse : parse raw = .ok (decode s)) (hparse' : parse raw' = .ok (decode s')) :
    SameIdentity parse identity raw raw' ↔ s = s' := by
  constructor
  · rintro ⟨key, key', hkey, hkey', hsame⟩
    rw [hparse, Except.ok.injEq] at hkey
    rw [hparse', Except.ok.injEq] at hkey'
    subst hkey hkey'
    exact hinjective hsame
  · rintro rfl
    exact ⟨_, _, hparse, hparse', rfl⟩

/-- For each structure, every value of its fields and every presentation: the parser returns
the fields, and raises for the key of a channel exactly when it has no cookie or is of
another family or protocol. Two presented keys have the same identity exactly when they agree
in every field. -/
theorem parsers_match_layouts :
    ((∀ (k : UdpKey) (raw : Json), Presents k.members raw → parseBpftoolKey raw = .ok k.decode) ∧
      (∀ (c : UdpCounters) (raw : Json), Presents c.members raw →
        parseBpftoolCounters raw .null = .ok c.decode) ∧
      (∀ (k : DeliveredKey) (pad : BitVec 16) (raw : Json), Presents (k.members pad) raw →
        parseBpftoolDeliveredKey raw = .ok k.decode) ∧
      (∀ (v : DeliveredValue) (pad : BitVec 32) (raw : Json), Presents (v.members pad) raw →
        parseBpftoolDeliveredValue raw .null = .ok v.decode) ∧
      (∀ (d : FlowDecoder) (k : ChannelKey) (pad : BitVec 16) (raw : Json),
        Presents (k.members pad) raw →
          (d.Accepts k → d.parseKey raw = .ok k.decode) ∧
          (¬ d.Accepts k → ∃ message, d.parseKey raw = .error (.runtimeError message))) ∧
      (∀ (d : FlowDecoder) (v : ChannelValue) (pad : BitVec 32) (raw : Json),
        Presents (v.members pad) raw → d.parseValue raw .null = .ok v.decode)) ∧
    (∀ (k k' : UdpKey) (raw raw' : Json), Presents k.members raw → Presents k'.members raw' →
      (SameIdentity parseBpftoolKey UdpMapKey.identity raw raw' ↔ k = k')) ∧
    (∀ (k k' : DeliveredKey) (pad pad' : BitVec 16) (raw raw' : Json),
      Presents (k.members pad) raw → Presents (k'.members pad') raw' →
        (SameIdentity parseBpftoolDeliveredKey DeliveredMapKey.identity raw raw' ↔ k = k')) ∧
    (∀ (d : FlowDecoder) (k k' : ChannelKey) (pad pad' : BitVec 16) (raw raw' : Json),
      d.Accepts k → d.Accepts k' → Presents (k.members pad) raw → Presents (k'.members pad') raw' →
        (SameIdentity d.parseKey FlowKey.identity raw raw' ↔ k = k')) := by
  refine ⟨⟨fun k raw => parseBpftoolKey_presented k, fun c raw => parseBpftoolCounters_presented c,
    fun k pad raw => parseBpftoolDeliveredKey_presented k,
    fun v pad raw => parseBpftoolDeliveredValue_presented v,
    fun d k pad raw => d.parseKey_presented k, fun d v pad raw => d.parseValue_presented v⟩,
    ?_, ?_, ?_⟩
  · intro k k' raw raw' h h'
    exact sameIdentity_iff UdpKey.identity_decode_injective (parseBpftoolKey_presented k h)
      (parseBpftoolKey_presented k' h')
  · intro k k' pad pad' raw raw' h h'
    exact sameIdentity_iff DeliveredKey.identity_decode_injective
      (parseBpftoolDeliveredKey_presented k h) (parseBpftoolDeliveredKey_presented k' h')
  · intro d k k' pad pad' raw raw' haccepts haccepts' h h'
    exact sameIdentity_iff identity_decode_injective ((d.parseKey_presented k h).1 haccepts)
      ((d.parseKey_presented k' h').1 haccepts')

/-- A key of the ingress map. -/
def newsKey : UdpKey := ⟨2, 17, 5004, 5006, 3, 0x0A0000C0, 0x146433C6⟩

/-- Its hole has leftover bytes, and it is printed in hexadecimal with a byte behind it. -/
theorem parsers_match_layouts_news :
    parseBpftoolKey (hexList (image (fun _ => 0xAB) newsKey.members ++ [0xCD])) =
      .ok newsKey.decode := by
  apply parsers_match_layouts.1.1
  apply Presents.bytes (fun _ => 0xAB) [0xCD]
  rw [List.forall₂_map_right_iff, List.forall₂_same]
  exact fun b _ => printsByte_hexByte b

end UdpAnalyzer
