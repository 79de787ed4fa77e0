import Mathlib.Algebra.Order.BigOperators.Group.Finset
import UdpAnalyzer.Channel.Decode
import UdpAnalyzer.Lib.Ledger

/-! What the kernel programs account. The counters of a flow, summed over the
CPUs, behave as counters in a store that may drop a flow at any moment: a hook
posts what it accounts to the key of its socket, an eviction drops the key, and
nothing else changes a counter. -/

namespace UdpAnalyzer

open Snapshot

variable {n : ℕ}

/-- A counter of a flow over all CPUs. -/
def slotsLevel (slots : Fin n → ChannelValue) (f : FlowField) : ℤ :=
  ∑ cpu, (((slots cpu).counter f).toNat : ℤ)

/-- The counters of the flows in the map. -/
def FlowMap.counts (m : FlowMap n) : Snapshot ChannelKey FlowField :=
  fun key => (m.get? key).map slotsLevel

def Charge.amount (charge : Charge) (f : FlowField) : ℤ := (charge.counter f).toNat

theorem slotsLevel_nonneg (slots : Fin n → ChannelValue) (f : FlowField) : 0 ≤ slotsLevel slots f :=
  Finset.sum_nonneg fun _ _ => Int.natCast_nonneg _

/-- Writing one slot changes the counter by what the slot changes. -/
theorem slotsLevel_update (slots : Fin n → ChannelValue) (cpu : Fin n) (v : ChannelValue)
    (f : FlowField) : slotsLevel (Function.update slots cpu v) f =
      slotsLevel slots f + ((v.counter f).toNat - ((slots cpu).counter f).toNat) := by
  unfold slotsLevel
  have hcomp : (fun c => (((Function.update slots cpu v c).counter f).toNat : ℤ)) =
      Function.update (fun c => (((slots c).counter f).toNat : ℤ)) cpu (v.counter f).toNat := by
    funext c
    by_cases h : c = cpu
    · subst h
      rw [Function.update_self, Function.update_self]
    · rw [Function.update_of_ne h, Function.update_of_ne h]
  rw [hcomp, Finset.sum_update_of_mem (Finset.mem_univ cpu),
    ← Finset.add_sum_erase _ _ (Finset.mem_univ cpu), Finset.sdiff_singleton_eq_erase]
  omega

theorem slotsLevel_empty (f : FlowField) : slotsLevel (fun _ : Fin n => {}) f = 0 := by
  unfold slotsLevel
  apply Finset.sum_eq_zero
  intro cpu _
  cases f <;> rfl

theorem FlowMap.level_counts_nonneg (m : FlowMap n) (key : ChannelKey) (f : FlowField) :
    0 ≤ m.counts.level key f := by
  unfold Snapshot.level FlowMap.counts
  cases m.get? key with
  | none => exact le_rfl
  | some slots => exact slotsLevel_nonneg slots f

theorem FlowMap.counts_ne_none {m : FlowMap n} {key : ChannelKey} :
    m.counts key ≠ none ↔ key ∈ m := by
  rw [FlowMap.counts, ne_eq, Option.map_eq_none_iff, Dict.get?_eq_none, not_not]

/-! ### The map operations -/

namespace FlowMap

/-- The slots a call accounts to: those of the flow, or fresh ones when there is room. -/
def slotsFor (m : FlowMap n) (ctx : HookContext n) (key : ChannelKey) (zero : ChannelValue) :
    Option (Fin n → ChannelValue) :=
  match m.get? key with
  | some slots => some slots
  | none => if ctx.room then some (Function.update (fun _ => {}) ctx.cpu zero) else none

theorem get?_writeSlot {m : FlowMap n} {key : ChannelKey} {slots : Fin n → ChannelValue}
    (h : m.get? key = some slots) (cpu : Fin n) (v : ChannelValue) (k : ChannelKey) :
    (m.writeSlot cpu key v).get? k =
      if k = key then some (Function.update slots cpu v) else m.get? k := by
  unfold writeSlot
  rw [h]
  exact Dict.get?_set m key _ k

end FlowMap

/-- All that accounting does to the map. -/
theorem get?_accountFlow (ctx : HookContext n) (sk : Sock) (key : ChannelKey) (charge : Charge)
    (m : FlowMap n) (k : ChannelKey) :
    (accountFlow ctx sk key charge m).get? k =
      if k = key then (m.slotsFor ctx key (freshValue ctx sk charge.state)).map fun slots =>
        Function.update slots ctx.cpu
          ((slots ctx.cpu).account (freshValue ctx sk charge.state) charge ctx.nowNs)
      else m.get? k := by
  unfold accountFlow FlowMap.slotsFor
  cases hm : m.get? key with
  | some slots =>
    have hlookup : m.lookupElem ctx.cpu key = some (slots ctx.cpu) := by
      rw [FlowMap.lookupElem, hm, Option.map_some]
    simp only [hlookup, Option.isNone_some, Bool.false_eq_true, if_false]
    rw [FlowMap.get?_writeSlot hm]
    rfl
  | none =>
    have hlookup : m.lookupElem ctx.cpu key = none := by
      rw [FlowMap.lookupElem, hm, Option.map_none]
    have hmem : key ∉ m := Dict.get?_eq_none.mp hm
    simp only [hlookup, Option.isNone_none, if_true, FlowMap.updateNoExist, hmem, false_or]
    by_cases hroom : ctx.room = true
    · have hset := Dict.get?_set_self m key
        (Function.update (fun _ => ({} : ChannelValue)) ctx.cpu (freshValue ctx sk charge.state))
      have hlookup' : FlowMap.lookupElem (m.set key (Function.update (fun _ => ({} : ChannelValue))
          ctx.cpu (freshValue ctx sk charge.state))) ctx.cpu key =
            some (freshValue ctx sk charge.state) := by
        rw [FlowMap.lookupElem, hset, Option.map_some, Function.update_self]
      simp only [hroom, Bool.true_eq_false, if_false, hlookup', if_true]
      rw [FlowMap.get?_writeSlot hset, Dict.get?_set]
      by_cases hk : k = key
      · rw [if_pos hk, if_pos hk, Option.map_some, Function.update_self]
      · rw [if_neg hk, if_neg hk, if_neg hk]
    · have hroom' : ctx.room = false := Bool.eq_false_iff.mpr hroom
      simp only [hroom', if_true, hlookup, Bool.false_eq_true, if_false, Option.map_none]
      split_ifs with hk
      · rw [hk, hm]
      · rfl

/-- No counter of the slot wraps. -/
def FlowMap.Fits (m : FlowMap n) (cpu : Fin n) (key : ChannelKey) (charge : Charge) : Prop :=
  ∀ slots, m.get? key = some slots →
    ∀ f, ((slots cpu).counter f).toNat + (charge.counter f).toNat < 2 ^ 64

instance : Fintype FlowField :=
  ⟨{.txBytes, .rxBytes, .txCalls, .rxCalls, .connections}, by intro f; cases f <;> simp⟩

instance (m : FlowMap n) (cpu : Fin n) (key : ChannelKey) (charge : Charge) :
    Decidable (m.Fits cpu key charge) :=
  match h : m.get? key with
  | none => .isTrue fun slots hslots => by rw [h] at hslots; cases hslots
  | some slots =>
    decidable_of_iff (∀ f, ((slots cpu).counter f).toNat + (charge.counter f).toNat < 2 ^ 64) (by
      unfold FlowMap.Fits
      rw [h]
      exact ⟨fun hf slots' hs => by cases hs; exact hf, fun hf => hf slots rfl⟩)

theorem counter_account {v zero : ChannelValue} {charge : Charge} {nowNs : BitVec 64}
    {f : FlowField} (h : (v.counter f).toNat + (charge.counter f).toNat < 2 ^ 64) :
    ((v.account zero charge nowNs).counter f).toNat =
      (v.counter f).toNat + (charge.counter f).toNat := by
  have hadd : (v.account zero charge nowNs).counter f = v.counter f + charge.counter f := by
    cases f <;> rfl
  rw [hadd, BitVec.toNat_add, Nat.mod_eq_of_lt h]

theorem counter_freshValue (ctx : HookContext n) (sk : Sock) (state : BitVec 32) (f : FlowField) :
    (freshValue ctx sk state).counter f = 0 := by
  cases f <;> rfl

theorem FlowMap.slotsFor_eq_none {m : FlowMap n} {ctx : HookContext n} {key : ChannelKey}
    {zero : ChannelValue} (h : m.slotsFor ctx key zero = none) : ¬ (key ∈ m ∨ ctx.room = true) := by
  unfold slotsFor at h
  cases hm : m.get? key with
  | some slots => rw [hm] at h; cases h
  | none =>
    rw [hm] at h
    rintro (hmem | hroom)
    · exact Dict.get?_eq_none.mp hm hmem
    · simp [hroom] at h

/-- The slots a call accounts to hold the counters of the flow. -/
theorem FlowMap.slotsFor_level {m : FlowMap n} {ctx : HookContext n} {sk : Sock}
    {key : ChannelKey} {state : BitVec 32} {slots : Fin n → ChannelValue}
    (h : m.slotsFor ctx key (freshValue ctx sk state) = some slots) :
    (key ∈ m ∨ ctx.room = true) ∧ ∀ f, slotsLevel slots f = m.counts.level key f := by
  unfold slotsFor at h
  cases hm : m.get? key with
  | some slots' =>
    rw [hm] at h
    cases h
    refine ⟨.inl (Dict.get?_isSome.mp (by rw [hm]; rfl)), fun f => ?_⟩
    exact (level_of_some (by rw [counts, hm, Option.map_some]) f).symm
  | none =>
    rw [hm] at h
    dsimp only at h
    split_ifs at h with hroom
    cases h
    refine ⟨.inr hroom, fun f => ?_⟩
    have hzero : ((({} : ChannelValue).counter f).toNat : ℤ) = 0 := by cases f <;> rfl
    rw [level_of_none (by rw [counts, hm, Option.map_none]), slotsLevel_update, slotsLevel_empty,
      counter_freshValue, hzero]
    rfl

/-- The charge fits the slot it goes to. -/
theorem FlowMap.slotsFor_fits {m : FlowMap n} {ctx : HookContext n} {sk : Sock}
    {key : ChannelKey} {charge : Charge} {slots : Fin n → ChannelValue}
    (hfits : m.Fits ctx.cpu key charge)
    (h : m.slotsFor ctx key (freshValue ctx sk charge.state) = some slots) (f : FlowField) :
    ((slots ctx.cpu).counter f).toNat + (charge.counter f).toNat < 2 ^ 64 := by
  unfold slotsFor at h
  cases hm : m.get? key with
  | some slots' =>
    rw [hm] at h
    cases h
    exact hfits slots hm f
  | none =>
    rw [hm] at h
    dsimp only at h
    split_ifs at h
    cases h
    rw [Function.update_self, counter_freshValue]
    have hlt := (charge.counter f).isLt
    simpa using hlt

/-- Accounting posts the charge, unless the flow is missing and there is no room. -/
theorem counts_accountFlow {ctx : HookContext n} {sk : Sock} {key : ChannelKey} {charge : Charge}
    {m : FlowMap n} (hfits : m.Fits ctx.cpu key charge) :
    (accountFlow ctx sk key charge m).counts =
      if key ∈ m ∨ ctx.room = true then m.counts.post (.add key charge.amount) else m.counts := by
  funext k
  have hget := get?_accountFlow ctx sk key charge m k
  by_cases hk : k = key
  · subst hk
    rw [if_pos rfl] at hget
    cases hslots : m.slotsFor ctx k (freshValue ctx sk charge.state) with
    | none =>
      have hnone := FlowMap.slotsFor_eq_none hslots
      have hmissing : m.get? k = none := Dict.get?_eq_none.mpr fun h => hnone (.inl h)
      rw [if_neg hnone, FlowMap.counts, hget, hslots, FlowMap.counts, hmissing]
      rfl
    | some slots =>
      obtain ⟨hadmitted, hlevel⟩ := FlowMap.slotsFor_level hslots
      rw [if_pos hadmitted, post_add, Function.update_self, FlowMap.counts, hget, hslots]
      refine congrArg some (funext fun f => ?_)
      have hlt := FlowMap.slotsFor_fits hfits hslots f
      rw [slotsLevel_update, counter_account hlt, hlevel f, Charge.amount]
      omega
  · have hsame : (accountFlow ctx sk key charge m).counts k = m.counts k := by
      rw [FlowMap.counts, hget, if_neg hk]
      rfl
    rw [hsame]
    split_ifs
    · rw [post_add, Function.update_of_ne hk]
    · rfl

theorem counts_evict (m : FlowMap n) (key : ChannelKey) :
    (m.evict key).counts = m.counts.post (.drop key) := by
  funext k
  rw [post_drop, FlowMap.counts, FlowMap.evict, Dict.get?_restrict]
  by_cases h : k = key
  · subst h
    simp
  · rw [Function.update_of_ne h, if_pos (by simpa using h)]
    rfl

/-- A record without the time of the last call and the state. -/
def ChannelValue.standing (v : ChannelValue) : ChannelValue := { v with lastNs := 0, state := 0 }

/-- What the map says of the flows, times and states apart. -/
def FlowMap.standing (m : FlowMap n) (key : ChannelKey) : Option (Fin n → ChannelValue) :=
  (m.get? key).map fun slots cpu => (slots cpu).standing

/-- Storing the state of a socket changes times and states only. -/
theorem standing_updateTcpState (ctx : HookContext n) (sk : Option Sock) (state : BitVec 32)
    (m : FlowMap n) : (updateTcpState ctx sk state m).standing = m.standing := by
  unfold updateTcpState
  split
  · rfl
  split
  · rfl
  split
  · rfl
  next key _ _ value hvalue =>
    funext k
    obtain ⟨slots, hslots, rfl⟩ := Option.map_eq_some_iff.mp hvalue
    rw [FlowMap.standing, FlowMap.get?_writeSlot hslots]
    by_cases hk : k = key
    · subst hk
      rw [if_pos rfl, FlowMap.standing, hslots]
      refine congrArg some (funext fun cpu => ?_)
      dsimp only
      by_cases hcpu : cpu = ctx.cpu
      · rw [hcpu, Function.update_self]
        rfl
      · rw [Function.update_of_ne hcpu]
    · rw [if_neg hk]
      rfl

theorem counts_of_standing {m m' : FlowMap n} (h : m.standing = m'.standing) :
    m.counts = m'.counts := by
  have hcounts : ∀ m : FlowMap n, m.counts = fun key => (m.standing key).map slotsLevel := by
    intro m
    funext key
    rw [FlowMap.counts, FlowMap.standing, Option.map_map]
    rfl
  rw [hcounts m, hcounts m', h]

/-! ### The programs -/

/-- What the hooks of a program account: nothing, or a charge to a key of the
current cgroup. Whatever they account is accounted by `accountFlow`; a hook that
accounts nothing changes times and states only. -/
structure ChannelProgram where
  Call : Type
  hook : ∀ {n}, HookContext n → Call → FlowMap n → FlowMap n
  charged : ∀ {n}, HookContext n → Call → Option (ChannelKey × Charge)
  decoder : FlowDecoder
  kind : ChannelKind
  hook_charged : ∀ {n} {ctx : HookContext n} {call key charge},
    charged ctx call = some (key, charge) →
    ∃ sk, ∀ m, hook ctx call m = accountFlow ctx sk key charge m
  hook_uncharged : ∀ {n} {ctx : HookContext n} {call}, charged ctx call = none →
    ∀ m, (hook ctx call m).standing = m.standing
  cgroupId : ∀ {n} {ctx : HookContext n} {call key charge}, charged ctx call = some (key, charge) →
    key.cgroupId = ctx.cgroupId
  accepts : ∀ {n} {ctx : HookContext n} {call key charge}, charged ctx call = some (key, charge) →
    decoder.Accepts key

/-- The key a charge of a TCP hook goes to. -/
def tcpCharge (ctx : HookContext n) (sk : Option Sock) (charge : Charge) :
    Option (ChannelKey × Charge) :=
  (sk.bind fun sk => fillTcpKey sk ctx.cgroupId).map fun key => (key, charge)

/-- A successful connect, the bytes of a send, the bytes of a receive. -/
def tcpCharged (ctx : HookContext n) : TcpCall → Option (ChannelKey × Charge)
  | .connectExit sk ret => if ret = 0 then tcpCharge ctx sk { connections := 1 } else none
  | .sendmsgExit sk ret =>
    if 0 < ret.toInt then tcpCharge ctx sk { txBytes := ret.signExtend 64, txCalls := 1 } else none
  | .recvmsgExit sk _ ret =>
    if 0 < ret.toInt then tcpCharge ctx sk { rxBytes := ret.signExtend 64, rxCalls := 1 } else none
  | .setStateEntry _ _ => none

/-- The bytes of a receive that consumes a datagram. -/
def udpCharged (ctx : HookContext n) : UdpCall → Option (ChannelKey × Charge)
  | .recvmsgExit sk flags ret =>
    if flags &&& (msgPeek ||| msgErrqueue) ≠ 0 then none
    else if 0 < ret.toInt then
      (sk.bind fun sk => fillUdpKey sk ctx.cgroupId).map fun key =>
        (key, { rxBytes := ret.signExtend 64, rxCalls := 1 })
    else none

theorem fillTcpKey_cgroupId {sk : Sock} {cgroupId : BitVec 64} {key : ChannelKey}
    (h : fillTcpKey sk cgroupId = some key) : key.cgroupId = cgroupId := by
  unfold fillTcpKey at h
  dsimp only at h
  split_ifs at h
  cases h
  rfl

theorem fillUdpKey_cgroupId {sk : Sock} {cgroupId : BitVec 64} {key : ChannelKey}
    (h : fillUdpKey sk cgroupId = some key) : key.cgroupId = cgroupId := by
  unfold fillUdpKey at h
  dsimp only at h
  split_ifs at h
  cases h
  rfl

theorem fillTcpKey_accepts {sk : Sock} {cgroupId : BitVec 64} {key : ChannelKey}
    (h : fillTcpKey sk cgroupId = some key) : tcpDecoder.Accepts key := by
  unfold fillTcpKey at h
  dsimp only at h
  split_ifs at h with hfamily hcookie hports
  cases h
  exact ⟨hcookie, rfl, rfl⟩

theorem fillUdpKey_accepts {sk : Sock} {cgroupId : BitVec 64} {key : ChannelKey}
    (h : fillUdpKey sk cgroupId = some key) : udpDecoder.Accepts key := by
  unfold fillUdpKey at h
  dsimp only at h
  split_ifs at h with hfamily hcookie hports
  cases h
  exact ⟨hcookie, rfl, rfl⟩

/-- A TCP charge is a filled key and is accounted to it. -/
theorem tcpCharge_eq_some {ctx : HookContext n} {sk : Option Sock} {charge charge' : Charge}
    {key : ChannelKey} (h : tcpCharge ctx sk charge = some (key, charge')) :
    charge' = charge ∧ ∃ s, fillTcpKey s ctx.cgroupId = some key ∧
      ∀ m, accountTcpFlow ctx sk charge m = accountFlow ctx s key charge m := by
  obtain ⟨k, hk, he⟩ := Option.map_eq_some_iff.mp h
  obtain ⟨s, rfl, hfill⟩ := Option.bind_eq_some_iff.mp hk
  cases he
  exact ⟨rfl, s, hfill, fun m => by simp only [accountTcpFlow, hfill]⟩

theorem tcpCharge_eq_none {ctx : HookContext n} {sk : Option Sock} {charge : Charge}
    (h : tcpCharge ctx sk charge = none) (m : FlowMap n) : accountTcpFlow ctx sk charge m = m := by
  unfold accountTcpFlow
  cases sk with
  | none => rfl
  | some s =>
    have hfill : fillTcpKey s ctx.cgroupId = none := by
      simpa [tcpCharge] using h
    simp only [hfill]

/-- Whatever a TCP hook charges is the charge of some socket. -/
theorem tcpCharged_eq_some {ctx : HookContext n} {call : TcpCall} {key : ChannelKey}
    {charge : Charge} (h : tcpCharged ctx call = some (key, charge)) :
    ∃ s, fillTcpKey s ctx.cgroupId = some key ∧
      ∀ m, tcpHook ctx call m = accountFlow ctx s key charge m := by
  cases call with
  | connectExit sk ret =>
    simp only [tcpCharged] at h
    split_ifs at h with hret
    obtain ⟨rfl, s, hfill, hs⟩ := tcpCharge_eq_some h
    exact ⟨s, hfill, fun m => by rw [tcpHook, if_pos hret, hs m]⟩
  | sendmsgExit sk ret =>
    simp only [tcpCharged] at h
    split_ifs at h with hret
    obtain ⟨rfl, s, hfill, hs⟩ := tcpCharge_eq_some h
    exact ⟨s, hfill, fun m => by rw [tcpHook, if_pos hret, hs m]⟩
  | recvmsgExit sk flags ret =>
    simp only [tcpCharged] at h
    split_ifs at h with hret
    obtain ⟨rfl, s, hfill, hs⟩ := tcpCharge_eq_some h
    exact ⟨s, hfill, fun m => by rw [tcpHook, if_pos hret, hs m]⟩
  | setStateEntry sk state => cases h

theorem udpCharged_eq_some {ctx : HookContext n} {call : UdpCall} {key : ChannelKey}
    {charge : Charge} (h : udpCharged ctx call = some (key, charge)) :
    ∃ s, fillUdpKey s ctx.cgroupId = some key ∧
      ∀ m, udpHook ctx call m = accountFlow ctx s key charge m := by
  obtain ⟨sk, flags, ret⟩ := call
  simp only [udpCharged] at h
  split_ifs at h with hflags hret
  obtain ⟨k, hk, he⟩ := Option.map_eq_some_iff.mp h
  obtain ⟨s, rfl, hfill⟩ := Option.bind_eq_some_iff.mp hk
  cases he
  exact ⟨s, hfill, fun m => by simp only [udpHook, if_neg hflags, if_pos hret, accountUdpFlow, hfill]⟩

/-- `tcp_channel.bpf.c` with its collector. -/
abbrev tcpProgram : ChannelProgram where
  Call := TcpCall
  hook := tcpHook
  charged := tcpCharged
  decoder := tcpDecoder
  kind := tcpChannel
  hook_charged h := (tcpCharged_eq_some h).imp fun _ hs => hs.2
  hook_uncharged {_ ctx call} h m := by
    cases call with
    | connectExit sk ret =>
      simp only [tcpCharged] at h
      simp only [tcpHook]
      split_ifs at h ⊢ with hret
      · rw [tcpCharge_eq_none h]
      · rfl
    | sendmsgExit sk ret =>
      simp only [tcpCharged] at h
      simp only [tcpHook]
      split_ifs at h ⊢ with hret
      · rw [tcpCharge_eq_none h]
      · rfl
    | recvmsgExit sk flags ret =>
      simp only [tcpCharged] at h
      simp only [tcpHook]
      split_ifs at h ⊢ with hret
      · rw [tcpCharge_eq_none h]
      · rfl
    | setStateEntry sk state => exact standing_updateTcpState ctx sk state m
  cgroupId h := (tcpCharged_eq_some h).elim fun _ hs => fillTcpKey_cgroupId hs.1
  accepts h := (tcpCharged_eq_some h).elim fun _ hs => fillTcpKey_accepts hs.1

/-- `udp_channel.bpf.c` with its collector. -/
abbrev udpProgram : ChannelProgram where
  Call := UdpCall
  hook := udpHook
  charged := udpCharged
  decoder := udpDecoder
  kind := udpChannel
  hook_charged h := (udpCharged_eq_some h).imp fun _ hs => hs.2
  hook_uncharged {_ ctx call} h m := by
    obtain ⟨sk, flags, ret⟩ := call
    simp only [udpCharged] at h
    simp only [udpHook]
    split_ifs at h ⊢ with hflags hret
    · rfl
    · cases sk with
      | none => rfl
      | some s =>
        have hfill : fillUdpKey s ctx.cgroupId = none := by simpa using h
        simp only [accountUdpFlow, hfill]
    · rfl
  cgroupId h := (udpCharged_eq_some h).elim fun _ hs => fillUdpKey_cgroupId hs.1
  accepts h := (udpCharged_eq_some h).elim fun _ hs => fillUdpKey_accepts hs.1

/-! ### Runs of the kernel -/

/-- A hook runs, or the map evicts a flow. -/
inductive KernelEvent (P : ChannelProgram) (n : ℕ) where
  | hook (ctx : HookContext n) (call : P.Call)
  | evict (key : ChannelKey)

namespace KernelEvent

variable {P : ChannelProgram}

def step (m : FlowMap n) : KernelEvent P n → FlowMap n
  | .hook ctx call => P.hook ctx call m
  | .evict key => m.evict key

/-- The event wraps no counter. -/
def Fits (m : FlowMap n) : KernelEvent P n → Prop
  | .hook ctx call => ∀ key charge, P.charged ctx call = some (key, charge) →
      m.Fits ctx.cpu key charge
  | .evict _ => True

instance (m : FlowMap n) (ev : KernelEvent P n) : Decidable (ev.Fits m) :=
  match ev with
  | .evict _ => .isTrue trivial
  | .hook ctx call =>
    match h : P.charged ctx call with
    | none => .isTrue fun key charge hcharged => by rw [h] at hcharged; cases hcharged
    | some (key, charge) =>
      decidable_of_iff (m.Fits ctx.cpu key charge) (by
        show _ ↔ ∀ key charge, P.charged ctx call = some (key, charge) → m.Fits ctx.cpu key charge
        rw [h]
        exact ⟨fun hf k c hc => by cases hc; exact hf, fun hf => hf key charge rfl⟩)

/-- What the event accounts: a charge that finds its flow or room for it. -/
def postings (m : FlowMap n) : KernelEvent P n → List (Posting ChannelKey FlowField)
  | .hook ctx call =>
    match P.charged ctx call with
    | none => []
    | some (key, charge) => if key ∈ m ∨ ctx.room = true then [.add key charge.amount] else []
  | .evict key => [.drop key]

theorem counts_step {m : FlowMap n} {ev : KernelEvent P n} (h : ev.Fits m) :
    (step m ev).counts = (postings m ev).foldl post m.counts := by
  cases ev with
  | evict key => exact counts_evict m key
  | hook ctx call =>
    show (P.hook ctx call m).counts = _
    unfold postings
    dsimp only
    split
    next huncharged => exact counts_of_standing (P.hook_uncharged huncharged m)
    next key charge hcharged =>
      obtain ⟨sk, haccount⟩ := P.hook_charged hcharged
      rw [haccount m, counts_accountFlow (h key charge hcharged)]
      split_ifs <;> rfl

theorem postings_nonneg {m : FlowMap n} {ev : KernelEvent P n} {p : Posting ChannelKey FlowField}
    (h : p ∈ postings m ev) : p.Nonneg := by
  cases ev with
  | evict key =>
    rw [List.mem_singleton.mp h]
    trivial
  | hook ctx call =>
    unfold postings at h
    dsimp only at h
    split at h
    · cases h
    · split_ifs at h
      · rw [List.mem_singleton.mp h]
        exact fun f => Int.natCast_nonneg _
      · cases h

/-- Only an eviction drops a flow. -/
theorem drop_mem_postings {m : FlowMap n} {ev : KernelEvent P n} {key : ChannelKey}
    (h : Posting.drop key ∈ postings m ev) : ev = .evict key := by
  cases ev with
  | evict k =>
    cases List.mem_singleton.mp h
    rfl
  | hook ctx call =>
    unfold postings at h
    dsimp only at h
    split at h
    · cases h
    · split_ifs at h
      · cases List.mem_singleton.mp h
      · cases h

end KernelEvent

/-- The amount the hooks account to a flow while the events happen. -/
def accounted {P : ChannelProgram} (m : FlowMap n) (events : List (KernelEvent P n))
    (key : ChannelKey) (f : FlowField) : ℤ :=
  posted (ledger KernelEvent.step KernelEvent.postings m events) key f

section Runs
variable {P : ChannelProgram} {m : FlowMap n} {events : List (KernelEvent P n)}

theorem accounted_append (m : FlowMap n) (as bs : List (KernelEvent P n)) (key : ChannelKey)
    (f : FlowField) : accounted m (as ++ bs) key f =
      accounted m as key f + accounted (as.foldl KernelEvent.step m) bs key f := by
  unfold accounted
  rw [ledger_append, posted_append]

theorem ledger_nonneg : ∀ p ∈ ledger KernelEvent.step KernelEvent.postings m events, p.Nonneg := by
  intro p hp
  obtain ⟨m', ev, -, hmem⟩ := mem_ledger hp
  exact KernelEvent.postings_nonneg hmem

theorem accounted_nonneg (m : FlowMap n) (events : List (KernelEvent P n)) (key : ChannelKey)
    (f : FlowField) : 0 ≤ accounted m events key f :=
  posted_nonneg ledger_nonneg key f

/-- What a flow gains between two readings was accounted in between. -/
theorem gain_le_accounted (h : Along KernelEvent.step KernelEvent.Fits m events) (key : ChannelKey)
    (f : FlowField) :
    gain m.counts (events.foldl KernelEvent.step m).counts key f ≤ accounted m events key f := by
  rw [counts_foldl (fun _ _ => KernelEvent.counts_step) h]
  exact gain_foldl_post_le ledger_nonneg (m.level_counts_nonneg key f)

/-- All that was accounted to a flow that was there and stayed is gained. -/
theorem gain_eq_accounted (h : Along KernelEvent.step KernelEvent.Fits m events) {key : ChannelKey}
    (hkey : key ∈ m) (hevict : .evict key ∉ events) (f : FlowField) :
    gain m.counts (events.foldl KernelEvent.step m).counts key f = accounted m events key f := by
  rw [counts_foldl (fun _ _ => KernelEvent.counts_step) h]
  refine gain_foldl_post_eq ledger_nonneg ?_ ?_ f
  · exact FlowMap.counts_ne_none.mpr hkey
  · intro hdrop
    obtain ⟨m', ev, hev, hmem⟩ := mem_ledger hdrop
    rw [KernelEvent.drop_mem_postings hmem] at hev
    exact hevict hev

/-- The parser accepts every key the programs put into the map. -/
theorem accepts_step {ev : KernelEvent P n} (h : ∀ key ∈ m, P.decoder.Accepts key) :
    ∀ key ∈ KernelEvent.step m ev, P.decoder.Accepts key := by
  intro key hkey
  cases ev with
  | evict k => exact h key (Dict.mem_restrict.mp hkey).2
  | hook ctx call =>
    cases hcharged : P.charged ctx call with
    | none =>
      have hcounts : (P.hook ctx call m).counts = m.counts :=
        counts_of_standing (P.hook_uncharged hcharged m)
      rw [← FlowMap.counts_ne_none] at hkey
      exact h key (FlowMap.counts_ne_none.mp (by rw [← hcounts]; exact hkey))
    | some p =>
      obtain ⟨k, charge⟩ := p
      obtain ⟨sk, haccount⟩ := P.hook_charged hcharged
      have hget := get?_accountFlow ctx sk k charge m key
      by_cases hk : key = k
      · rw [hk]
        exact P.accepts hcharged
      · rw [if_neg hk, ← haccount m] at hget
        exact h key (Dict.get?_isSome.mp (by rw [← hget]; exact Dict.get?_isSome.mpr hkey))

theorem accepts_foldl (h : ∀ key ∈ m, P.decoder.Accepts key) :
    ∀ key ∈ events.foldl KernelEvent.step m, P.decoder.Accepts key := by
  induction events generalizing m with
  | nil => exact h
  | cons ev rest ih => exact ih (accepts_step h)

end Runs

end UdpAnalyzer
