import UdpAnalyzer.Channel.EndToEnd

/-! What the receive hooks count. The counters of a flow on one CPU move by the charge of the
hook that runs there, so a run adds to the receive counters of a flow what its receive calls
are charged for. A call that peeks or reads the error queue takes nothing off the queue of
the socket; the UDP hook does not charge it. -/

namespace UdpAnalyzer

variable {n : ℕ} {P : ChannelProgram}

/-! ### What a run adds -/

/-- A counter of a flow on one CPU, zero where the map has no such flow. -/
def FlowMap.counterOn (m : FlowMap n) (key : ChannelKey) (cpu : Fin n) (f : FlowField) :
    BitVec 64 :=
  ((m.get? key).map fun slots => (slots cpu).counter f).getD 0

namespace KernelEvent

/-- How far an event moves a counter of a flow, on the CPU it runs on. -/
def adds (m : FlowMap n) (key : ChannelKey) (f : FlowField) : KernelEvent P n → ℕ
  | .hook ctx call =>
    ((P.hook ctx call m).counterOn key ctx.cpu f - m.counterOn key ctx.cpu f).toNat
  | .evict _ => 0

end KernelEvent

/-- What the events of a run add to a counter of a flow. -/
def added (key : ChannelKey) (f : FlowField) : FlowMap n → List (KernelEvent P n) → ℕ
  | _, [] => 0
  | m, ev :: rest => ev.adds m key f + added key f (ev.step m) rest

/-- An LRU map makes room for every flow. -/
def Admits (events : List (KernelEvent P n)) : Prop :=
  ∀ ctx call, .hook ctx call ∈ events → ctx.room = true

theorem counterOn_eq_standing (m : FlowMap n) (key : ChannelKey) (cpu : Fin n) (f : FlowField) :
    m.counterOn key cpu f =
      ((m.standing key).map fun slots => (slots cpu).counter f).getD 0 := by
  rw [FlowMap.standing, Option.map_map, FlowMap.counterOn]
  cases f <;> rfl

theorem counterOn_accountFlow {ctx : HookContext n} (hroom : ctx.room = true) (sk : Sock)
    (key : ChannelKey) (charge : Charge) (m : FlowMap n) (k : ChannelKey) (f : FlowField) :
    (accountFlow ctx sk key charge m).counterOn k ctx.cpu f =
      m.counterOn k ctx.cpu f + if key = k then charge.counter f else 0 := by
  have haccount : ∀ v zero : ChannelValue, (v.account zero charge ctx.nowNs).counter f =
      v.counter f + charge.counter f := fun v zero => by cases f <;> rfl
  rw [FlowMap.counterOn, get?_accountFlow, FlowMap.counterOn]
  by_cases hk : k = key
  · subst hk
    rw [if_pos rfl, if_pos rfl, FlowMap.slotsFor]
    cases m.get? k with
    | some slots =>
      simp only [Option.map_some, Option.getD_some, Function.update_self, haccount]
    | none =>
      simp only [hroom, if_true, Option.map_some, Option.getD_some, Function.update_self, haccount,
        counter_freshValue, Option.map_none, Option.getD_none]
  · rw [if_neg hk, if_neg fun h => hk h.symm]
    exact (BitVec.add_zero _).symm

/-- A hook adds its charge to the flow it is for. -/
theorem adds_hook {ctx : HookContext n} (hroom : ctx.room = true) (call : P.Call) (m : FlowMap n)
    (key : ChannelKey) (f : FlowField) :
    (KernelEvent.hook ctx call : KernelEvent P n).adds m key f =
      (((P.charged ctx call).filter fun p => p.1 = key).map fun p =>
        (p.2.counter f).toNat).getD 0 := by
  unfold KernelEvent.adds
  cases hcharged : P.charged ctx call with
  | none =>
    dsimp only
    rw [counterOn_eq_standing, counterOn_eq_standing, P.hook_uncharged hcharged m, BitVec.sub_self]
    rfl
  | some p =>
    obtain ⟨k, charge⟩ := p
    obtain ⟨sk, haccount⟩ := P.hook_charged hcharged
    dsimp only
    rw [haccount, counterOn_accountFlow hroom, BitVec.add_comm, BitVec.add_sub_cancel]
    by_cases hk : k = key
    · simp [hk, Option.filter_some]
    · simp [hk, Option.filter_some]

/-! ### Receive calls -/

/-- A call of `tcp_recvmsg` or `udp_recvmsg` on the socket of a flow. -/
structure Receive where
  key : ChannelKey
  flags : BitVec 32
  ret : BitVec 32

namespace Receive

def positive (r : Receive) : Bool := 0 < r.ret.toInt

/-- Neither `MSG_PEEK` nor `MSG_ERRQUEUE` is set. -/
def unflagged (r : Receive) : Bool := r.flags &&& (msgPeek ||| msgErrqueue) = 0

/-- The charge of a receive. -/
def charge (r : Receive) : Charge := { rxBytes := r.ret.signExtend 64, rxCalls := 1 }

theorem rxBytes_charge {r : Receive} (h : r.positive = true) :
    (r.charge.counter .rxBytes).toNat = r.ret.toNat := by
  have hpos : 0 < r.ret.toInt := of_decide_eq_true h
  have hint : r.ret.toInt = r.ret.toNat := by
    rw [BitVec.toInt_eq_toNat_cond] at hpos ⊢
    split_ifs at hpos ⊢ with hlt
    · rfl
    · have := r.ret.isLt
      omega
  have hlt := r.ret.isLt
  show (BitVec.ofInt 64 r.ret.toInt).toNat = _
  rw [BitVec.toNat_ofInt, hint]
  omega

end Receive

/-- The receive a TCP event is. -/
def tcpReceive : KernelEvent tcpProgram n → Option Receive
  | .hook ctx (TcpCall.recvmsgExit sk flags ret) =>
    (sk.bind fun sk => fillTcpKey sk ctx.cgroupId).map fun key => ⟨key, flags, ret⟩
  | _ => none

/-- The receive a UDP event is. -/
def udpReceive : KernelEvent udpProgram n → Option Receive
  | .hook ctx (UdpCall.recvmsgExit sk flags ret) =>
    (sk.bind fun sk => fillUdpKey sk ctx.cgroupId).map fun key => ⟨key, flags, ret⟩
  | _ => none

/-- The receives of a flow, in order. -/
def receivesOn (receive : KernelEvent P n → Option Receive) (key : ChannelKey)
    (events : List (KernelEvent P n)) : List Receive :=
  (events.filterMap receive).filter fun r => r.key = key

/-- The receives of a run that take bytes off the queue are counted once: the bytes they
return, and each as a call. -/
def CountsConsumed (receive : KernelEvent P n → Option Receive) (m : FlowMap n)
    (events : List (KernelEvent P n)) : Prop :=
  ∀ key,
    added key .rxBytes m events =
      (((receivesOn receive key events).filter fun r => r.positive && r.unflagged).map
        fun r => r.ret.toNat).sum ∧
    added key .rxCalls m events =
      ((receivesOn receive key events).filter fun r => r.positive && r.unflagged).length

/-- What one event adds to the receive counters: the charge of a receive that counts. -/
def Charges (receive : KernelEvent P n → Option Receive) (counts : Receive → Bool) : Prop :=
  ∀ (ev : KernelEvent P n) (m : FlowMap n) (key : ChannelKey) (f : FlowField),
    f = .rxBytes ∨ f = .rxCalls → Admits [ev] →
    ev.adds m key f = (((receive ev).filter fun r => counts r && r.key = key).map
      fun r => (r.charge.counter f).toNat).getD 0

/-- What a run adds is the sum over the receives that count. -/
theorem added_receives {receive : KernelEvent P n → Option Receive} {counts : Receive → Bool}
    (h : Charges receive counts) {f : FlowField} (hf : f = .rxBytes ∨ f = .rxCalls)
    (key : ChannelKey) (m : FlowMap n) {events : List (KernelEvent P n)} (hroom : Admits events) :
    added key f m events = (((receivesOn receive key events).filter counts).map
      fun r => (r.charge.counter f).toNat).sum := by
  induction events generalizing m with
  | nil => rfl
  | cons ev rest ih =>
    have hhead : Admits [ev] := fun ctx call hmem =>
      hroom ctx call (List.mem_singleton.mp hmem ▸ List.mem_cons_self)
    have htail : Admits rest := fun ctx call hmem => hroom ctx call (List.mem_cons_of_mem _ hmem)
    rw [added, h ev m key f hf hhead, ih (ev.step m) htail]
    unfold receivesOn
    cases hreceive : receive ev with
    | none => simp [hreceive]
    | some r =>
      rw [List.filterMap_cons_some hreceive, List.filter_cons]
      by_cases hkey : r.key = key
      · by_cases hcounts : counts r = true
        · simp [hkey, hcounts, Option.filter_some]
        · simp [hkey, hcounts, Option.filter_some]
      · simp [hkey, Option.filter_some]

/-- A charge to none of the receive counters adds nothing to them. -/
theorem charge_of_zero {charged : Option (ChannelKey × Charge)} {f : FlowField}
    (h : ∀ p, charged = some p → p.2.counter f = 0) (key : ChannelKey) :
    ((charged.filter fun p => p.1 = key).map fun p => (p.2.counter f).toNat).getD 0 = 0 := by
  cases charged with
  | none => rfl
  | some p =>
    rw [Option.filter_some]
    split_ifs
    · show (p.2.counter f).toNat = 0
      rw [h p rfl]
      rfl
    · rfl

/-- The charge of a receive, where the receive counts. -/
theorem charge_of_receive {filled : Option ChannelKey} {flags ret : BitVec 32}
    {counts : Receive → Bool} {cond : Prop} [Decidable cond]
    (hcounts : ∀ k, counts ⟨k, flags, ret⟩ = decide cond) (key : ChannelKey) (f : FlowField) :
    (((if cond then filled.map fun k => (k, { rxBytes := ret.signExtend 64, rxCalls := 1 })
        else none).filter fun p : ChannelKey × Charge => p.1 = key).map
      fun p => (p.2.counter f).toNat).getD 0 =
    (((filled.map fun k => (⟨k, flags, ret⟩ : Receive)).filter
      fun r => counts r && r.key = key).map fun r => (r.charge.counter f).toNat).getD 0 := by
  cases filled with
  | none => simp
  | some k =>
    rw [Option.map_some, Option.map_some, Option.filter_some, hcounts]
    by_cases hcond : cond
    · rw [if_pos hcond, Option.filter_some, decide_eq_true hcond, Bool.true_and]
      split_ifs <;> rfl
    · rw [if_neg hcond, decide_eq_false hcond, Bool.false_and, if_neg Bool.false_ne_true]
      rfl

/-- The TCP hook charges every receive that returns bytes. -/
theorem tcp_charges : Charges (n := n) tcpReceive Receive.positive := by
  intro ev m key f hf hroom
  cases ev with
  | evict k => rfl
  | hook ctx call =>
    rw [adds_hook (hroom ctx call List.mem_cons_self)]
    have hother : ∀ {sk : Option Sock} {charge : Charge}, charge.counter f = 0 →
        ∀ p, tcpCharge ctx sk charge = some p → p.2.counter f = 0 := by
      rintro sk charge hzero ⟨k, charge'⟩ hp
      obtain ⟨rfl, -⟩ := tcpCharge_eq_some hp
      exact hzero
    cases call with
    | connectExit sk ret =>
      apply charge_of_zero
      intro p hp
      have hp : (if ret = 0 then tcpCharge ctx sk { connections := 1 } else none) = some p := hp
      split_ifs at hp
      exact hother (by rcases hf with rfl | rfl <;> rfl) p hp
    | sendmsgExit sk ret =>
      apply charge_of_zero
      intro p hp
      have hp : (if 0 < ret.toInt then
        tcpCharge ctx sk { txBytes := ret.signExtend 64, txCalls := 1 } else none) = some p := hp
      split_ifs at hp
      exact hother (by rcases hf with rfl | rfl <;> rfl) p hp
    | recvmsgExit sk flags ret => exact charge_of_receive (fun _ => rfl) key f
    | setStateEntry sk state => rfl

/-- The UDP hook charges those that also consume them. -/
theorem udp_charges : Charges (n := n) udpReceive fun r => r.positive && r.unflagged := by
  intro ev m key f hf hroom
  cases ev with
  | evict k => rfl
  | hook ctx call =>
    rw [adds_hook (hroom ctx call List.mem_cons_self)]
    obtain ⟨sk, flags, ret⟩ := call
    have hcharged : udpProgram.charged ctx (UdpCall.recvmsgExit sk flags ret) =
        if 0 < ret.toInt ∧ flags &&& (msgPeek ||| msgErrqueue) = 0 then
          (sk.bind fun sk => fillUdpKey sk ctx.cgroupId).map fun k =>
            (k, { rxBytes := ret.signExtend 64, rxCalls := 1 })
        else none := by
      show udpCharged ctx (UdpCall.recvmsgExit sk flags ret) = _
      unfold udpCharged
      by_cases hflags : flags &&& (msgPeek ||| msgErrqueue) = 0
      · simp only [hflags, ne_eq, not_true_eq_false, if_false, and_true]
      · simp only [hflags, ne_eq, not_false_eq_true, if_true, and_false, if_false]
    rw [hcharged]
    exact charge_of_receive (fun _ => (Bool.decide_and _ _).symm) key f

theorem mem_receivesOn {receive : KernelEvent P n → Option Receive} {key : ChannelKey}
    {events : List (KernelEvent P n)} {r : Receive} :
    r ∈ receivesOn receive key events ↔ (∃ ev ∈ events, receive ev = some r) ∧ r.key = key := by
  simp [receivesOn]

/-- A program counts what is consumed exactly when it charges no receive that consumes
nothing. -/
theorem countsConsumed_iff {receive : KernelEvent P n → Option Receive} {counts : Receive → Bool}
    (h : Charges receive counts) (hpositive : ∀ r, counts r = true → r.positive = true)
    (hconsumed : ∀ r, (r.positive && r.unflagged) = (counts r && r.unflagged)) (m : FlowMap n)
    {events : List (KernelEvent P n)} (hroom : Admits events) :
    CountsConsumed receive m events ↔
      ∀ ev ∈ events, ∀ r, receive ev = some r → counts r = true → r.unflagged = true := by
  have hbytes : ∀ key, added key .rxBytes m events =
      (((receivesOn receive key events).filter counts).map fun r => r.ret.toNat).sum := by
    intro key
    rw [added_receives h (.inl rfl) key m hroom]
    congr 1
    apply List.map_congr_left
    intro r hr
    exact Receive.rxBytes_charge (hpositive r (List.mem_filter.mp hr).2)
  have hcalls : ∀ key, added key .rxCalls m events =
      ((receivesOn receive key events).filter counts).length := by
    intro key
    have hone : ∀ r : Receive, (r.charge.counter .rxCalls).toNat = 1 := fun _ => rfl
    rw [added_receives h (.inr rfl) key m hroom]
    simp only [hone, List.map_const', List.sum_replicate, smul_eq_mul, mul_one]
  have hfilter : ∀ key, (receivesOn receive key events).filter
      (fun r => r.positive && r.unflagged) =
        ((receivesOn receive key events).filter counts).filter Receive.unflagged := by
    intro key
    rw [List.filter_filter]
    apply List.filter_congr
    intro r _
    rw [hconsumed, Bool.and_comm]
  constructor
  · intro hlaw ev hev r hr hcounts
    have hlength := (hlaw r.key).2
    rw [hcalls, hfilter] at hlength
    have hall := List.length_filter_eq_length_iff.mp hlength.symm
    exact hall r (List.mem_filter.mpr ⟨mem_receivesOn.mpr ⟨⟨ev, hev, hr⟩, rfl⟩, hcounts⟩)
  · intro hall key
    rw [hbytes, hcalls, hfilter]
    have hkept : ((receivesOn receive key events).filter counts).filter Receive.unflagged =
        (receivesOn receive key events).filter counts := by
      rw [List.filter_eq_self]
      intro r hr
      obtain ⟨hmem, hcounts⟩ := List.mem_filter.mp hr
      obtain ⟨⟨ev, hev, hreceive⟩, -⟩ := mem_receivesOn.mp hmem
      exact hall ev hev r hreceive hcounts
    rw [hkept]
    exact ⟨rfl, rfl⟩

/-- Both programs count what is consumed, each byte and call once, exactly when no TCP receive
that returns bytes peeks or reads the error queue; the UDP program always does. -/
theorem receives_counted_once_iff (m m' : FlowMap n) (tcp : List (KernelEvent tcpProgram n))
    (udp : List (KernelEvent udpProgram n)) (htcp : Admits tcp) (hudp : Admits udp) :
    (CountsConsumed tcpReceive m tcp ∧ CountsConsumed udpReceive m' udp) ↔
      ∀ ctx sk flags ret, .hook ctx (TcpCall.recvmsgExit (some sk) flags ret) ∈ tcp →
        fillTcpKey sk ctx.cgroupId ≠ none → 0 < ret.toInt →
        flags &&& (msgPeek ||| msgErrqueue) = 0 := by
  have hudpLaw : CountsConsumed udpReceive m' udp := by
    rw [countsConsumed_iff udp_charges (fun r hr => (Bool.and_eq_true_iff.mp hr).1)
      (fun r => by rw [Bool.and_assoc, Bool.and_self]) m' hudp]
    exact fun _ _ r _ hr => (Bool.and_eq_true_iff.mp hr).2
  rw [and_iff_left hudpLaw,
    countsConsumed_iff tcp_charges (fun _ => id) (fun _ => rfl) m htcp]
  constructor
  · intro h ctx sk flags ret hmem hfill hpos
    obtain ⟨key, hkey⟩ := Option.ne_none_iff_exists'.mp hfill
    have hreceive : tcpReceive (.hook ctx (TcpCall.recvmsgExit (some sk) flags ret) :
        KernelEvent tcpProgram n) = some ⟨key, flags, ret⟩ := by
      simp [tcpReceive, hkey]
    exact of_decide_eq_true (h _ hmem _ hreceive (decide_eq_true hpos))
  · intro h ev hev r hr hpos
    match ev with
    | .hook ctx (TcpCall.recvmsgExit (some sk) flags ret) =>
      obtain ⟨key, hkey, rfl⟩ := Option.map_eq_some_iff.mp hr
      have hfill : fillTcpKey sk ctx.cgroupId = some key := hkey
      exact decide_eq_true (h ctx sk flags ret hev (by rw [hfill]; rintro ⟨⟩)
        (of_decide_eq_true hpos))

/-! A reader of the service that peeks at a message before it reads it. -/

/-- Receives of the service on its socket. -/
def readRun (flags : List (BitVec 32)) : List (KernelEvent tcpProgram 2) :=
  flags.map fun flags => .hook (serviceContext 0 1) (TcpCall.recvmsgExit (some serviceSock) flags 500)

def datagramRun : List (KernelEvent udpProgram 2) :=
  [.hook (serviceContext 0 1) (UdpCall.recvmsgExit (some serviceSock) msgPeek 1316),
    .hook (serviceContext 1 2) (UdpCall.recvmsgExit (some serviceSock) 0 1316)]

theorem receives_counted_once_iff_read :
    (CountsConsumed tcpReceive (∅ : FlowMap 2) (readRun [0, 0]) ∧
      CountsConsumed udpReceive (∅ : FlowMap 2) datagramRun) ∧
    added serviceKey .rxBytes ∅ (readRun [0, 0]) = 1000 := by
  have htcp : Admits (readRun [0, 0]) := by
    intro ctx call hmem
    obtain ⟨flags, -, hhook⟩ := List.mem_map.mp hmem
    injection hhook with hctx
    rw [← hctx]
    rfl
  have hudp : Admits datagramRun := by
    intro ctx call hmem
    simp only [datagramRun, List.mem_cons, List.not_mem_nil, or_false] at hmem
    rcases hmem with h | h <;> · injection h with hctx; rw [hctx]; rfl
  refine ⟨(receives_counted_once_iff ∅ ∅ (readRun [0, 0]) datagramRun htcp hudp).mpr ?_,
    by decide +kernel⟩
  intro ctx sk flags ret hmem _ _
  obtain ⟨flags', hflags, hhook⟩ := List.mem_map.mp hmem
  injection hhook with _ hcall
  injection hcall with _ hflag
  rw [← hflag]
  simp only [List.mem_cons, List.not_mem_nil, or_false, or_self] at hflags
  rw [hflags]
  rfl

theorem peeked_bytes_counted_twice :
    ¬ CountsConsumed tcpReceive (∅ : FlowMap 2) (readRun [msgPeek, 0]) := by
  intro h
  have hbytes := (h serviceKey).1
  revert hbytes
  decide +kernel

end UdpAnalyzer
