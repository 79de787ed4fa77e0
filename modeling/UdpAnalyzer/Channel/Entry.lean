import UdpAnalyzer.Channel.Merge

/-! One entry of the TCP flow map. Whatever happens in the map, the entry of a key sees a
sequence of events of its own: calls that account to the key, states that are stored under
it, and its eviction. The state of a socket is stored under the key of the cgroup that runs
when the kernel changes it. -/

namespace UdpAnalyzer

variable {n : ℕ}

/-- What happens to an entry. -/
inductive EntryEvent (n : ℕ) where
  | account (ctx : HookContext n) (sk : Sock) (charge : Charge)
  | store (ctx : HookContext n) (state : BitVec 32)
  | drop

/-- An entry after an event; a missing one is created by a call that accounts to it, if there
is room. -/
def EntryEvent.apply (entry : Option (Fin n → ChannelValue)) :
    EntryEvent n → Option (Fin n → ChannelValue)
  | .account ctx sk charge =>
    let zero := freshValue ctx sk charge.state
    let found := match entry with
      | some slots => some slots
      | none => if ctx.room then some (Function.update (fun _ => {}) ctx.cpu zero) else none
    found.map fun slots =>
      Function.update slots ctx.cpu ((slots ctx.cpu).account zero charge ctx.nowNs)
  | .store ctx state => entry.map fun slots =>
      Function.update slots ctx.cpu { slots ctx.cpu with lastNs := ctx.nowNs, state := state }
  | .drop => none

/-- An event under the key of a socket, if the socket is taken. -/
def keyed (ctx : HookContext n) (sk : Option Sock) (event : Sock → EntryEvent n) :
    Option (ChannelKey × EntryEvent n) :=
  sk.bind fun sk => (fillTcpKey sk ctx.cgroupId).map fun key => (key, event sk)

/-- The entry a call concerns, and how. -/
def tcpEntryEvent (ctx : HookContext n) : TcpCall → Option (ChannelKey × EntryEvent n)
  | .connectExit sk ret =>
    if ret = 0 then keyed ctx sk fun sk => .account ctx sk { connections := 1 } else none
  | .sendmsgExit sk ret =>
    if 0 < ret.toInt then
      keyed ctx sk fun sk => .account ctx sk { txBytes := ret.signExtend 64, txCalls := 1 }
    else none
  | .recvmsgExit sk _ ret =>
    if 0 < ret.toInt then
      keyed ctx sk fun sk => .account ctx sk { rxBytes := ret.signExtend 64, rxCalls := 1 }
    else none
  | .setStateEntry sk state => keyed ctx sk fun _ => .store ctx state

/-- What an event of the kernel is to the entry of a key. -/
def entryEvent (key : ChannelKey) : KernelEvent tcpProgram n → Option (EntryEvent n)
  | .hook ctx call => (tcpEntryEvent ctx call).bind fun p => if p.1 = key then some p.2 else none
  | .evict k => if k = key then some .drop else none

def entryEvents (key : ChannelKey) (events : List (KernelEvent tcpProgram n)) :
    List (EntryEvent n) :=
  events.filterMap (entryEvent key)

/-- A call drops no entry. -/
theorem tcpEntryEvent_ne_drop {ctx : HookContext n} {call : TcpCall}
    {p : ChannelKey × EntryEvent n} (h : tcpEntryEvent ctx call = some p) : p.2 ≠ .drop := by
  have hkeyed : ∀ {sk : Option Sock} {event : Sock → EntryEvent n}, (∀ s, event s ≠ .drop) →
      keyed ctx sk event = some p → p.2 ≠ .drop := by
    intro sk event hevent hp
    obtain ⟨s, -, hs⟩ := Option.bind_eq_some_iff.mp hp
    obtain ⟨key, -, rfl⟩ := Option.map_eq_some_iff.mp hs
    exact hevent s
  cases call with
  | connectExit sk ret =>
    rw [tcpEntryEvent] at h
    split_ifs at h
    exact hkeyed (fun _ hdrop => by cases hdrop) h
  | sendmsgExit sk ret =>
    rw [tcpEntryEvent] at h
    split_ifs at h
    exact hkeyed (fun _ hdrop => by cases hdrop) h
  | recvmsgExit sk flags ret =>
    rw [tcpEntryEvent] at h
    split_ifs at h
    exact hkeyed (fun _ hdrop => by cases hdrop) h
  | setStateEntry sk state => exact hkeyed (fun _ hdrop => by cases hdrop) h

/-! ### The map seen from one key -/

theorem get?_accountTcpFlow (ctx : HookContext n) (sk : Option Sock) (charge : Charge)
    (m : FlowMap n) (key : ChannelKey) :
    (accountTcpFlow ctx sk charge m).get? key =
      (((keyed ctx sk fun sk => .account ctx sk charge).bind fun p =>
        if p.1 = key then some p.2 else none).map (EntryEvent.apply (m.get? key))).getD (m.get? key) := by
  unfold accountTcpFlow keyed
  cases sk with
  | none => rfl
  | some s =>
    simp only [Option.bind_some]
    cases hfill : fillTcpKey s ctx.cgroupId with
    | none => rfl
    | some k =>
      simp only [Option.map_some, Option.bind_some]
      rw [get?_accountFlow]
      by_cases hk : key = k
      · subst hk
        rw [if_pos rfl, if_pos rfl]
        rfl
      · rw [if_neg hk, if_neg fun h => hk h.symm]
        rfl

theorem get?_updateTcpState (ctx : HookContext n) (sk : Option Sock) (state : BitVec 32)
    (m : FlowMap n) (key : ChannelKey) :
    (updateTcpState ctx sk state m).get? key =
      (((keyed ctx sk fun _ => .store ctx state).bind fun p =>
        if p.1 = key then some p.2 else none).map (EntryEvent.apply (m.get? key))).getD (m.get? key) := by
  unfold updateTcpState keyed
  cases sk with
  | none => rfl
  | some s =>
    simp only [Option.bind_some]
    cases hfill : fillTcpKey s ctx.cgroupId with
    | none => rfl
    | some k =>
      simp only [Option.map_some, Option.bind_some]
      unfold FlowMap.lookupElem
      by_cases hk : key = k
      · subst hk
        rw [if_pos rfl]
        cases hget : m.get? key with
        | none => exact hget
        | some slots =>
          simp only [Option.map_some]
          rw [FlowMap.get?_writeSlot hget, if_pos rfl]
          rfl
      · rw [if_neg fun h => hk h.symm]
        cases hget : m.get? k with
        | none => rfl
        | some slots =>
          simp only [Option.map_some]
          rw [FlowMap.get?_writeSlot hget, if_neg hk]
          rfl

/-- An event of the kernel changes an entry as the event of the entry says, and otherwise
leaves it. -/
theorem get?_step (m : FlowMap n) (ev : KernelEvent tcpProgram n) (key : ChannelKey) :
    (KernelEvent.step m ev).get? key =
      ((entryEvent key ev).map (EntryEvent.apply (m.get? key))).getD (m.get? key) := by
  cases ev with
  | evict k =>
    show (m.evict k).get? key = _
    rw [FlowMap.evict, Dict.get?_restrict, entryEvent]
    by_cases hk : k = key
    · rw [if_pos hk, hk]
      simp [EntryEvent.apply]
    · rw [if_neg hk, if_pos (by simpa using fun h : key = k => hk h.symm)]
      rfl
  | hook ctx call =>
    show (tcpHook ctx call m).get? key = _
    cases call with
    | connectExit sk ret =>
      rw [tcpHook, entryEvent, tcpEntryEvent]
      split_ifs
      · exact get?_accountTcpFlow ctx sk _ m key
      · rfl
    | sendmsgExit sk ret =>
      rw [tcpHook, entryEvent, tcpEntryEvent]
      split_ifs
      · exact get?_accountTcpFlow ctx sk _ m key
      · rfl
    | recvmsgExit sk flags ret =>
      rw [tcpHook, entryEvent, tcpEntryEvent]
      split_ifs
      · exact get?_accountTcpFlow ctx sk _ m key
      · rfl
    | setStateEntry sk state => exact get?_updateTcpState ctx sk state m key

/-- The entry of a key after a run is the one its own events lead to. -/
theorem get?_foldl_step (m : FlowMap n) (events : List (KernelEvent tcpProgram n))
    (key : ChannelKey) :
    (events.foldl KernelEvent.step m).get? key =
      (entryEvents key events).foldl EntryEvent.apply (m.get? key) := by
  induction events generalizing m with
  | nil => rfl
  | cons ev rest ih =>
    rw [List.foldl_cons, ih, get?_step, entryEvents, entryEvents, List.filterMap_cons]
    cases entryEvent key ev <;> rfl

end UdpAnalyzer
