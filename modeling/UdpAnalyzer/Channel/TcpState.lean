import UdpAnalyzer.Channel.EndToEnd
import UdpAnalyzer.Channel.Entry

/-! The state that is reported of a socket. A change of state is stored under the key of the
cgroup that happens to run, in the slot of the CPU it happens on, and the merged record has
the first state that is set in the order of the CPUs; none of this is about which change
was the last. -/

namespace UdpAnalyzer

variable {n : ℕ}

/-- Something that is followed while a key is in the map, and starts over with every new
entry. -/
def sinceCreated {α : Type} (key : ChannelKey) (initial : α)
    (follow : α → KernelEvent tcpProgram n → α) (events : List (KernelEvent tcpProgram n)) : α :=
  (events.foldl (fun (s : FlowMap n × α) ev =>
    let m := KernelEvent.step s.1 ev
    (m, if key ∈ s.1 ∧ key ∈ m then follow s.2 ev else initial)) (∅, initial)).2

/-- The argument of the last `tcp_set_state` on the socket of a key since the entry of the key
was created. -/
def lastState (key : ChannelKey) (events : List (KernelEvent tcpProgram n)) : BitVec 32 :=
  sinceCreated key 0 (fun last ev =>
    match ev with
    | .hook _ (.setStateEntry (some sk) state) =>
      if sk.cookie = key.socketCookie then state else last
    | _ => last) events

/-- The argument of the last of these calls that was made on a CPU while the cgroup of the key
ran. -/
def lastStateOn (key : ChannelKey) (cpu : Fin n) (events : List (KernelEvent tcpProgram n)) :
    BitVec 32 :=
  sinceCreated key 0 (fun last ev =>
    match entryEvent key ev with
    | some (.store ctx state) => if ctx.cpu = cpu then state else last
    | _ => last) events

/-! ### The states of the slots -/

theorem sinceCreated_concat {α : Type} (key : ChannelKey) (initial : α)
    (follow : α → KernelEvent tcpProgram n → α) (events : List (KernelEvent tcpProgram n))
    (ev : KernelEvent tcpProgram n) :
    sinceCreated key initial follow (events ++ [ev]) =
      if key ∈ events.foldl KernelEvent.step (∅ : FlowMap n) ∧
          key ∈ (events ++ [ev]).foldl KernelEvent.step (∅ : FlowMap n) then
        follow (sinceCreated key initial follow events) ev
      else initial := by
  have hmap : ∀ (events : List (KernelEvent tcpProgram n)) (s : FlowMap n × α),
      (events.foldl (fun (s : FlowMap n × α) ev =>
        let m := KernelEvent.step s.1 ev
        (m, if key ∈ s.1 ∧ key ∈ m then follow s.2 ev else initial)) s).1 =
          events.foldl KernelEvent.step s.1 := by
    intro events
    induction events with
    | nil => exact fun s => rfl
    | cons ev rest ih => exact fun s => ih _
  have hfirst := hmap events (∅, initial)
  unfold sinceCreated
  rw [List.foldl_append, List.foldl_append]
  simp only [List.foldl_cons, List.foldl_nil, hfirst]
  rfl

theorem lastStateOn_concat (key : ChannelKey) (cpu : Fin n)
    (events : List (KernelEvent tcpProgram n)) (ev : KernelEvent tcpProgram n) :
    lastStateOn key cpu (events ++ [ev]) =
      if key ∈ events.foldl KernelEvent.step (∅ : FlowMap n) ∧
          key ∈ (events ++ [ev]).foldl KernelEvent.step (∅ : FlowMap n) then
        match entryEvent key ev with
        | some (.store ctx state) => if ctx.cpu = cpu then state else lastStateOn key cpu events
        | _ => lastStateOn key cpu events
      else 0 :=
  sinceCreated_concat key 0 _ events ev

/-- No call accounts a state. -/
theorem state_of_account {ctx ctx' : HookContext n} {call : TcpCall} {key : ChannelKey} {sk : Sock}
    {charge : Charge} (h : tcpEntryEvent ctx call = some (key, .account ctx' sk charge)) :
    charge.state = 0 := by
  have hkeyed : ∀ {sk' : Option Sock} {charge' : Charge}, charge'.state = 0 →
      (keyed ctx sk' fun s => .account ctx s charge') = some (key, .account ctx' sk charge) →
        charge.state = 0 := by
    intro sk' charge' hzero hp
    obtain ⟨s, -, hs⟩ := Option.bind_eq_some_iff.mp hp
    obtain ⟨k, -, hk⟩ := Option.map_eq_some_iff.mp hs
    cases hk
    exact hzero
  cases call with
  | connectExit sk' ret =>
    rw [tcpEntryEvent] at h
    split_ifs at h
    exact hkeyed rfl h
  | sendmsgExit sk' ret =>
    rw [tcpEntryEvent] at h
    split_ifs at h
    exact hkeyed rfl h
  | recvmsgExit sk' flags ret =>
    rw [tcpEntryEvent] at h
    split_ifs at h
    exact hkeyed rfl h
  | setStateEntry sk' state =>
    obtain ⟨s, -, hs⟩ := Option.bind_eq_some_iff.mp h
    obtain ⟨k, -, hk⟩ := Option.map_eq_some_iff.mp hs
    cases hk

theorem state_of_entryEvent {key : ChannelKey} {ev : KernelEvent tcpProgram n}
    {ctx : HookContext n} {sk : Sock} {charge : Charge}
    (h : entryEvent key ev = some (.account ctx sk charge)) : charge.state = 0 := by
  cases ev with
  | evict k =>
    rw [entryEvent] at h
    split_ifs at h
    cases h
  | hook ctx' call =>
    obtain ⟨⟨k, event⟩, hp, hif⟩ := Option.bind_eq_some_iff.mp h
    split_ifs at hif
    cases hif
    exact state_of_account hp

/-- The state of a slot after an event of its entry. -/
theorem state_apply {entry : Option (Fin n → ChannelValue)} {event : EntryEvent n}
    {slots : Fin n → ChannelValue} (h : EntryEvent.apply entry event = some slots)
    (hcharge : ∀ ctx sk charge, event = .account ctx sk charge → charge.state = 0) (cpu : Fin n) :
    (slots cpu).state =
      match event with
      | .store ctx state =>
        if ctx.cpu = cpu then state else (entry.map fun old => (old cpu).state).getD 0
      | _ => (entry.map fun old => (old cpu).state).getD 0 := by
  cases event with
  | account ctx sk charge =>
    have hstate := hcharge ctx sk charge rfl
    obtain ⟨old, hold, rfl⟩ := Option.map_eq_some_iff.mp h
    have hsame : (entry.map fun old => (old cpu).state).getD 0 = (old cpu).state := by
      cases entry with
      | some slots =>
        cases hold
        rfl
      | none =>
        dsimp only at hold
        split_ifs at hold
        cases hold
        by_cases hcpu : cpu = ctx.cpu
        · rw [hcpu, Function.update_self]
          exact hstate.symm
        · rw [Function.update_of_ne hcpu]
          rfl
    dsimp only
    rw [hsame]
    by_cases hcpu : cpu = ctx.cpu
    · subst hcpu
      rw [Function.update_self]
      exact if_neg (not_not.mpr hstate)
    · rw [Function.update_of_ne hcpu]
  | store ctx state =>
    obtain ⟨old, rfl, rfl⟩ := Option.map_eq_some_iff.mp h
    dsimp only
    by_cases hcpu : cpu = ctx.cpu
    · rw [hcpu, Function.update_self, if_pos rfl]
    · rw [Function.update_of_ne hcpu, if_neg fun hsame => hcpu hsame.symm]
      rfl
  | drop => cases h

/-- The slots of an entry have the states that were stored in them since it was created. -/
theorem state_slots (key : ChannelKey) (events : List (KernelEvent tcpProgram n))
    {slots : Fin n → ChannelValue}
    (h : (events.foldl KernelEvent.step (∅ : FlowMap n)).get? key = some slots) (cpu : Fin n) :
    (slots cpu).state = lastStateOn key cpu events := by
  induction events using List.reverseRecOn generalizing slots with
  | nil => cases h
  | append_singleton events ev ih =>
    have hafter : key ∈ (events ++ [ev]).foldl KernelEvent.step (∅ : FlowMap n) :=
      Dict.get?_isSome.mp (by rw [h]; rfl)
    rw [List.foldl_append] at h
    have hstep := h.symm.trans (get?_step (events.foldl KernelEvent.step (∅ : FlowMap n)) ev key)
    rw [lastStateOn_concat]
    cases hbefore : (events.foldl KernelEvent.step (∅ : FlowMap n)).get? key with
    | none =>
      have hnew : key ∉ events.foldl KernelEvent.step (∅ : FlowMap n) :=
        Dict.get?_eq_none.mp hbefore
      rw [if_neg fun hboth => hnew hboth.1]
      rw [hbefore] at hstep
      cases hentry : entryEvent key ev with
      | none =>
        rw [hentry] at hstep
        cases hstep
      | some event =>
        rw [hentry, Option.map_some, Option.getD_some] at hstep
        have hcharge : ∀ ctx sk charge, event = .account ctx sk charge → charge.state = 0 :=
          fun ctx sk charge hevent => state_of_entryEvent (hevent ▸ hentry)
        rw [state_apply hstep.symm hcharge cpu]
        cases event with
        | account ctx sk charge => rfl
        | store ctx state => cases hstep
        | drop => cases hstep
    | some old =>
      have hold : key ∈ events.foldl KernelEvent.step (∅ : FlowMap n) :=
        Dict.get?_isSome.mp (by rw [hbefore]; rfl)
      rw [if_pos ⟨hold, hafter⟩, ← ih hbefore]
      rw [hbefore] at hstep
      cases hentry : entryEvent key ev with
      | none =>
        rw [hentry, Option.map_none, Option.getD_none, Option.some.injEq] at hstep
        rw [hstep]
      | some event =>
        rw [hentry, Option.map_some, Option.getD_some] at hstep
        have hcharge : ∀ ctx sk charge, event = .account ctx sk charge → charge.state = 0 :=
          fun ctx sk charge hevent => state_of_entryEvent (hevent ▸ hentry)
        rw [state_apply hstep.symm hcharge cpu]
        cases event <;> rfl

/-- For every run of the kernel from an empty map and every entry it leaves: the merged record
has the last state of the socket, in whatever order the CPUs are listed, exactly when the last
state stored on each CPU for the cgroup of the key is none or that one, and it was stored on
some CPU unless it is none. -/
theorem state_reported_iff {events : List (KernelEvent tcpProgram n)} {key : ChannelKey}
    (hentry : key ∈ events.foldl KernelEvent.step (∅ : FlowMap n)) :
    (∃ slots, (events.foldl KernelEvent.step (∅ : FlowMap n)).get? key = some slots ∧
      ∀ order : List (Fin n), order.Perm (List.finRange n) → ∃ value,
        tcpDecoder.parseValue .null (printedValues slots order) = .ok value ∧
        value.state = (lastState key events).toNat) ↔
    (∀ cpu, lastStateOn key cpu events = 0 ∨ lastStateOn key cpu events = lastState key events) ∧
      (lastState key events = 0 ∨ ∃ cpu, lastStateOn key cpu events = lastState key events) := by
  obtain ⟨slots, hslots⟩ := Option.isSome_iff_exists.mp (Dict.get?_isSome.mpr hentry)
  have hstates := state_slots key events hslots
  have hmerged : (∃ slots', (events.foldl KernelEvent.step (∅ : FlowMap n)).get? key = some slots' ∧
      ∀ order : List (Fin n), order.Perm (List.finRange n) → ∃ value,
        tcpDecoder.parseValue .null (printedValues slots' order) = .ok value ∧
        value.state = (lastState key events).toNat) ↔
      ∀ order : List (Fin n), order.Perm (List.finRange n) →
        (mergedIn slots order).state = (lastState key events).toNat := by
    constructor
    · rintro ⟨slots', hslots', hall⟩ order horder
      rw [hslots, Option.some.injEq] at hslots'
      subst hslots'
      obtain ⟨value, hvalue, hstate⟩ := hall order horder
      rw [tcpDecoder.parseValue_printed, Except.ok.injEq] at hvalue
      rw [hvalue, hstate]
    · intro hall
      exact ⟨slots, hslots, fun order horder =>
        ⟨_, tcpDecoder.parseValue_printed slots order, hall order horder⟩⟩
  rw [hmerged, state_every_order]
  simp only [hstates]

/-- The socket connects and its states are stored on the CPU and for the cgroup that
connected. -/
def steadyRun : List (KernelEvent tcpProgram 2) :=
  [.hook (serviceContext 0 5) (.connectExit (some serviceSock) 0),
    .hook (serviceContext 0 6) (.setStateEntry (some serviceSock) 1),
    .hook (serviceContext 0 7) (.setStateEntry (some serviceSock) 8)]

theorem state_reported_iff_steady :
    ∃ slots, (steadyRun.foldl KernelEvent.step ∅).get? serviceKey = some slots ∧
      ∀ order : List (Fin 2), order.Perm (List.finRange 2) → ∃ value,
        tcpDecoder.parseValue .null (printedValues slots order) = .ok value ∧
        value.state = (lastState serviceKey steadyRun).toNat :=
  (@state_reported_iff 2 steadyRun serviceKey (by decide +kernel)).mpr (by decide +kernel)

/-- The socket is established on one CPU and the peer closes it on another; and the same on
one CPU, where another cgroup runs when the peer closes it. -/
def closeRun (cpu : Fin 2) (cgroupId : BitVec 64) : List (KernelEvent tcpProgram 2) :=
  [.hook (serviceContext 0 5) (.connectExit (some serviceSock) 0),
    .hook (serviceContext 0 6) (.setStateEntry (some serviceSock) 1),
    .hook { serviceContext cpu 7 with cgroupId := cgroupId } (.setStateEntry (some serviceSock) 8)]

/-- The state of the first CPU is the merged one if it is set. -/
theorem state_first_cpu {events : List (KernelEvent tcpProgram 2)} {slots : Fin 2 → ChannelValue}
    (hslots : (events.foldl KernelEvent.step (∅ : FlowMap 2)).get? serviceKey = some slots)
    (hstate : lastStateOn serviceKey 0 events = 1) : (mergedIn slots [0, 1]).state = 1 := by
  rw [state_mergedIn, List.map_cons, state_slots serviceKey events hslots 0, hstate,
    firstNonzero_cons]
  rfl

theorem closed_reported_established :
    (∃ slots, ((closeRun 1 77).foldl KernelEvent.step ∅).get? serviceKey = some slots ∧
      tcpDecoder.parseValue .null (printedValues slots [0, 1]) = .ok (mergedIn slots [0, 1]) ∧
      (mergedIn slots [0, 1]).state = 1 ∧ lastState serviceKey (closeRun 1 77) = 8) ∧
    ∃ slots, ((closeRun 0 1).foldl KernelEvent.step ∅).get? serviceKey = some slots ∧
      tcpDecoder.parseValue .null (printedValues slots [0, 1]) = .ok (mergedIn slots [0, 1]) ∧
      (mergedIn slots [0, 1]).state = 1 ∧ lastState serviceKey (closeRun 0 1) = 8 := by
  constructor
  · have hentry : serviceKey ∈ (closeRun 1 77).foldl KernelEvent.step ∅ := by decide +kernel
    obtain ⟨slots, hslots⟩ := Option.isSome_iff_exists.mp (Dict.get?_isSome.mpr hentry)
    exact ⟨slots, hslots, tcpDecoder.parseValue_printed slots [0, 1],
      state_first_cpu hslots (by decide +kernel), by decide +kernel⟩
  · have hentry : serviceKey ∈ (closeRun 0 1).foldl KernelEvent.step ∅ := by decide +kernel
    obtain ⟨slots, hslots⟩ := Option.isSome_iff_exists.mp (Dict.get?_isSome.mpr hentry)
    exact ⟨slots, hslots, tcpDecoder.parseValue_printed slots [0, 1],
      state_first_cpu hslots (by decide +kernel), by decide +kernel⟩

end UdpAnalyzer
