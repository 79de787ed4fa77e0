import Mathlib.Data.Int.ModEq
import UdpAnalyzer.Channel.EndToEnd
import UdpAnalyzer.Channel.Entry

/-! The records of all CPUs, merged, say what one record would. The events of an entry happen
on any CPUs; as long as their times do not go back, the merged record has their totals, the
time of the first and the time of the last. The counters have 64 bits, and so a total is one
modulo `2 ^ 64` once it is that large. -/

namespace UdpAnalyzer

variable {n : ℕ}

namespace EntryEvent

def charged : EntryEvent n → Option (HookContext n × Charge)
  | account ctx _ charge => some (ctx, charge)
  | store _ _ => none
  | drop => none

def time : EntryEvent n → Option (BitVec 64)
  | account ctx _ _ => some ctx.nowNs
  | store ctx _ => some ctx.nowNs
  | drop => none

end EntryEvent

/-- The account events of an entry. -/
def charges (events : List (EntryEvent n)) : List (HookContext n × Charge) :=
  events.filterMap EntryEvent.charged

/-- The times at which an entry is touched. -/
def times (events : List (EntryEvent n)) : List (BitVec 64) := events.filterMap EntryEvent.time

/-- What the account events add to a counter. -/
def chargedTotal (events : List (EntryEvent n)) (f : FlowField) : ℤ :=
  ((charges events).map fun charged => charged.2.amount f).sum

theorem charges_concat (events : List (EntryEvent n)) (ev : EntryEvent n) :
    charges (events ++ [ev]) = charges events ++ ev.charged.toList := by
  rw [charges, List.filterMap_append, charges]
  cases ev <;> rfl

theorem times_concat (events : List (EntryEvent n)) (ev : EntryEvent n) :
    times (events ++ [ev]) = times events ++ ev.time.toList := by
  rw [times, List.filterMap_append, times]
  cases ev <;> rfl

theorem chargedTotal_account (events : List (EntryEvent n)) (ctx : HookContext n) (sk : Sock)
    (charge : Charge) (f : FlowField) :
    chargedTotal (events ++ [.account ctx sk charge]) f =
      chargedTotal events f + charge.amount f := by
  rw [chargedTotal, charges_concat, List.map_append, List.sum_append]
  exact congrArg (chargedTotal events f + ·) (add_zero _)

theorem chargedTotal_store (events : List (EntryEvent n)) (ctx : HookContext n) (state : BitVec 32)
    (f : FlowField) : chargedTotal (events ++ [.store ctx state]) f = chargedTotal events f := by
  rw [chargedTotal, charges_concat]
  exact congrArg (fun l : List (HookContext n × Charge) => (l.map fun c => c.2.amount f).sum)
    (List.append_nil _)

/-- The slots of an entry after its events, of which the first accounting one was at `first`
and the last one that touched the entry at `last`. -/
structure Tracks (events : List (EntryEvent n)) (first last : BitVec 64)
    (slots : Fin n → ChannelValue) : Prop where
  level_mod : ∀ f, slotsLevel slots f ≡ chargedTotal events f [ZMOD 2 ^ 64]
  level_le : ∀ f, slotsLevel slots f ≤ chargedTotal events f
  started : ∃ cpu, (slots cpu).startNs = first
  starts : ∀ cpu, (slots cpu).startNs = 0 ∨ first ≤ (slots cpu).startNs
  touched : ∃ cpu, (slots cpu).lastNs = last
  lasts : ∀ cpu, (slots cpu).lastNs ≤ last
  first_le : first ≤ last

/-! ### One event -/

/-- Accounting changes the level of a counter by the charge, less what wraps. -/
theorem slotsLevel_account (slots : Fin n → ChannelValue) (cpu : Fin n) (zero : ChannelValue)
    (charge : Charge) (nowNs : BitVec 64) (f : FlowField) :
    let slots' := Function.update slots cpu ((slots cpu).account zero charge nowNs)
    slotsLevel slots' f ≡ slotsLevel slots f + charge.amount f [ZMOD 2 ^ 64] ∧
      slotsLevel slots' f ≤ slotsLevel slots f + charge.amount f := by
  have hcounter : ((slots cpu).account zero charge nowNs).counter f =
      (slots cpu).counter f + charge.counter f := by
    cases f <;> rfl
  dsimp only
  rw [slotsLevel_update, hcounter, BitVec.toNat_add, Charge.amount, Int.ModEq]
  have hlt := ((slots cpu).counter f).isLt
  have hlt' := (charge.counter f).isLt
  constructor <;> omega

section
variable {events : List (EntryEvent n)} {first last : BitVec 64} {slots : Fin n → ChannelValue}

theorem Tracks.account (h : Tracks events first last slots) {ctx : HookContext n}
    (hfirst : first ≠ 0) (hnow : last ≤ ctx.nowNs) (sk : Sock) (charge : Charge) :
    Tracks (events ++ [.account ctx sk charge]) first ctx.nowNs
      (Function.update slots ctx.cpu
        ((slots ctx.cpu).account (freshValue ctx sk charge.state) charge ctx.nowNs)) := by
  have hstart : ∀ value zero : ChannelValue, (value.account zero charge ctx.nowNs).startNs =
      if value.startNs = 0 then ctx.nowNs else value.startNs := fun _ _ => rfl
  have hfirst_le : first ≤ ctx.nowNs := BitVec.le_trans h.first_le hnow
  refine ⟨fun f => ?_, fun f => ?_, ?_, fun cpu => ?_, ⟨ctx.cpu, ?_⟩, fun cpu => ?_, hfirst_le⟩
  · rw [chargedTotal_account]
    exact (slotsLevel_account slots ctx.cpu _ charge ctx.nowNs f).1.trans
      ((h.level_mod f).add_right _)
  · have hlevel := (slotsLevel_account slots ctx.cpu (freshValue ctx sk charge.state) charge
      ctx.nowNs f).2
    have hle := h.level_le f
    rw [chargedTotal_account]
    omega
  · obtain ⟨cpu, hcpu⟩ := h.started
    refine ⟨cpu, ?_⟩
    by_cases hsame : cpu = ctx.cpu
    · subst hsame
      rw [Function.update_self, hstart, hcpu, if_neg hfirst]
    · rw [Function.update_of_ne hsame, hcpu]
  · by_cases hsame : cpu = ctx.cpu
    · rw [hsame, Function.update_self, hstart]
      split_ifs
      · exact .inr hfirst_le
      · exact h.starts ctx.cpu
    · rw [Function.update_of_ne hsame]
      exact h.starts cpu
  · rw [Function.update_self]
    rfl
  · by_cases hsame : cpu = ctx.cpu
    · rw [hsame, Function.update_self]
      exact BitVec.le_refl _
    · rw [Function.update_of_ne hsame]
      exact BitVec.le_trans (h.lasts cpu) hnow

theorem Tracks.store (h : Tracks events first last slots) {ctx : HookContext n}
    (hnow : last ≤ ctx.nowNs) (state : BitVec 32) :
    Tracks (events ++ [.store ctx state]) first ctx.nowNs
      (Function.update slots ctx.cpu { slots ctx.cpu with lastNs := ctx.nowNs, state := state }) := by
  have hlevel : ∀ f, slotsLevel (Function.update slots ctx.cpu
      { slots ctx.cpu with lastNs := ctx.nowNs, state := state }) f = slotsLevel slots f := by
    intro f
    rw [slotsLevel_update]
    cases f <;> exact add_eq_left.mpr (sub_self _)
  have hstart : ∀ cpu, (Function.update slots ctx.cpu
      { slots ctx.cpu with lastNs := ctx.nowNs, state := state } cpu).startNs =
        (slots cpu).startNs := by
    intro cpu
    by_cases hsame : cpu = ctx.cpu
    · rw [hsame, Function.update_self]
    · rw [Function.update_of_ne hsame]
  refine ⟨fun f => ?_, fun f => ?_, ?_, fun cpu => ?_, ⟨ctx.cpu, ?_⟩, fun cpu => ?_,
    BitVec.le_trans h.first_le hnow⟩
  · rw [hlevel, chargedTotal_store]
    exact h.level_mod f
  · rw [hlevel, chargedTotal_store]
    exact h.level_le f
  · obtain ⟨cpu, hcpu⟩ := h.started
    exact ⟨cpu, (hstart cpu).trans hcpu⟩
  · rw [hstart]
    exact h.starts cpu
  · rw [Function.update_self]
  · by_cases hsame : cpu = ctx.cpu
    · rw [hsame, Function.update_self]
      exact BitVec.le_refl _
    · rw [Function.update_of_ne hsame]
      exact BitVec.le_trans (h.lasts cpu) hnow

/-- The first call that accounts creates the entry, with zeros for the other CPUs. -/
theorem tracks_created {ctx : HookContext n} (hnow : ctx.nowNs ≠ 0)
    (hnone : charges events = []) (sk : Sock) (charge : Charge) :
    Tracks (events ++ [.account ctx sk charge]) ctx.nowNs ctx.nowNs
      (Function.update (Function.update (fun _ => {}) ctx.cpu (freshValue ctx sk charge.state))
        ctx.cpu ((freshValue ctx sk charge.state).account (freshValue ctx sk charge.state) charge
          ctx.nowNs)) := by
  have hzero : ∀ f, ((({} : ChannelValue).counter f).toNat : ℤ) = 0 := fun f => by cases f <;> rfl
  have htotal : ∀ f, chargedTotal events f = 0 := by
    intro f
    rw [chargedTotal, hnone]
    rfl
  have hlevel : ∀ f, slotsLevel (Function.update (Function.update (fun _ => {}) ctx.cpu
      (freshValue ctx sk charge.state)) ctx.cpu ((freshValue ctx sk charge.state).account
        (freshValue ctx sk charge.state) charge ctx.nowNs)) f = charge.amount f := by
    intro f
    have hcounter : ((freshValue ctx sk charge.state).account (freshValue ctx sk charge.state)
        charge ctx.nowNs).counter f = charge.counter f := by
      have hadd : ((freshValue ctx sk charge.state).account (freshValue ctx sk charge.state)
          charge ctx.nowNs).counter f =
            (freshValue ctx sk charge.state).counter f + charge.counter f := by
        cases f <;> rfl
      rw [hadd, counter_freshValue]
      exact BitVec.zero_add _
    rw [Function.update_idem, slotsLevel_update, slotsLevel_empty, hcounter, hzero, Charge.amount]
    omega
  have hstart : ((freshValue ctx sk charge.state).account (freshValue ctx sk charge.state) charge
      ctx.nowNs).startNs = ctx.nowNs := if_neg hnow
  rw [Function.update_idem] at hlevel ⊢
  refine ⟨fun f => ?_, fun f => ?_, ⟨ctx.cpu, ?_⟩, fun cpu => ?_, ⟨ctx.cpu, ?_⟩, fun cpu => ?_,
    BitVec.le_refl _⟩
  · rw [hlevel, chargedTotal_account, htotal, zero_add]
  · rw [hlevel, chargedTotal_account, htotal, zero_add]
  · rw [Function.update_self, hstart]
  · by_cases hsame : cpu = ctx.cpu
    · rw [hsame, Function.update_self, hstart]
      exact .inr (BitVec.le_refl _)
    · rw [Function.update_of_ne hsame]
      exact .inl rfl
  · rw [Function.update_self]
    rfl
  · by_cases hsame : cpu = ctx.cpu
    · rw [hsame, Function.update_self]
      exact BitVec.le_refl _
    · rw [Function.update_of_ne hsame]
      exact BitVec.le_def.mpr (Nat.zero_le _)

end

/-! ### A run of events -/

theorem time_mem_of_charged {events : List (EntryEvent n)} {charged : HookContext n × Charge}
    (h : charged ∈ charges events) : charged.1.nowNs ∈ times events := by
  obtain ⟨ev, hev, hcharged⟩ := List.mem_filterMap.mp h
  refine List.mem_filterMap.mpr ⟨ev, hev, ?_⟩
  cases ev with
  | account ctx sk charge =>
    cases hcharged
    rfl
  | store ctx state => cases hcharged
  | drop => cases hcharged

/-- An entry that is missing at first is created by the first call that accounts to it, and
tracks the events from then on. -/
theorem tracks_foldl {events : List (EntryEvent n)} (hdrop : .drop ∉ events)
    (htimes : (times events).Pairwise (· ≤ ·)) (hnonzero : 0 ∉ times events) :
    (charges events = [] → events.foldl EntryEvent.apply none = none) ∧
      ∀ charged, (charges events).head? = some charged → charged.1.room = true →
        ∃ slots last, events.foldl EntryEvent.apply none = some slots ∧
          (times events).getLast? = some last ∧ Tracks events charged.1.nowNs last slots := by
  induction events using List.reverseRecOn with
  | nil =>
    refine ⟨fun _ => rfl, fun charged hhead => ?_⟩
    cases hhead
  | append_singleton events ev ih =>
    rw [times_concat] at htimes hnonzero
    rw [List.pairwise_append] at htimes
    rw [List.mem_append, not_or] at hdrop hnonzero
    obtain ⟨htimes, -, hlater⟩ := htimes
    obtain ⟨ihnone, ihtracks⟩ := ih hdrop.1 htimes hnonzero.1
    rw [charges_concat, times_concat, List.foldl_append]
    cases ev with
    | account ctx sk charge =>
      have hnow : ctx.nowNs ≠ 0 := fun h => hnonzero.2 (List.mem_singleton.mpr h.symm)
      refine ⟨fun h => absurd h (List.append_ne_nil_of_right_ne_nil _ (List.cons_ne_nil _ _)), ?_⟩
      intro charged hhead hroom
      cases hcharges : charges events with
      | nil =>
        rw [hcharges] at hhead
        cases hhead
        rw [ihnone hcharges]
        have hroom' : ctx.room = true := hroom
        refine ⟨_, ctx.nowNs, ?_, List.getLast?_concat, tracks_created hnow hcharges sk charge⟩
        simp [EntryEvent.apply, hroom']
      | cons first rest =>
        rw [hcharges] at hhead ihtracks
        cases hhead
        obtain ⟨slots, last, hslots, hlast, htracks⟩ := ihtracks _ rfl hroom
        have hmem : charged.1.nowNs ∈ times events :=
          time_mem_of_charged (by rw [hcharges]; exact List.mem_cons_self)
        have hfirst : charged.1.nowNs ≠ 0 := fun h => hnonzero.1 (h ▸ hmem)
        have hle := hlater last (List.mem_of_getLast? hlast) ctx.nowNs List.mem_cons_self
        rw [hslots]
        exact ⟨_, ctx.nowNs, rfl, List.getLast?_concat, htracks.account hfirst hle sk charge⟩
    | store ctx state =>
      have hsame : charges events ++ (EntryEvent.store ctx state).charged.toList = charges events :=
        List.append_nil _
      rw [hsame]
      refine ⟨fun h => ?_, fun charged hhead hroom => ?_⟩
      · rw [ihnone h]
        rfl
      · obtain ⟨slots, last, hslots, hlast, htracks⟩ := ihtracks charged hhead hroom
        have hle := hlater last (List.mem_of_getLast? hlast) ctx.nowNs List.mem_cons_self
        rw [hslots]
        exact ⟨_, ctx.nowNs, rfl, List.getLast?_concat, htracks.store hle state⟩
    | drop => exact absurd List.mem_cons_self hdrop.2

/-! ### The same run on one CPU -/

def HookContext.onOneCpu (ctx : HookContext n) : HookContext 1 where
  cpu := 0
  nowNs := ctx.nowNs
  pidTgid := ctx.pidTgid
  cgroupId := ctx.cgroupId
  room := ctx.room

def KernelEvent.onOneCpu : KernelEvent tcpProgram n → KernelEvent tcpProgram 1
  | .hook ctx call => .hook ctx.onOneCpu call
  | .evict key => .evict key

def EntryEvent.onOneCpu : EntryEvent n → EntryEvent 1
  | .account ctx sk charge => .account ctx.onOneCpu sk charge
  | .store ctx state => .store ctx.onOneCpu state
  | .drop => .drop

theorem keyed_onOneCpu (ctx : HookContext n) (sk : Option Sock) (event : Sock → EntryEvent n) :
    keyed ctx.onOneCpu sk (fun sk => (event sk).onOneCpu) =
      (keyed ctx sk event).map fun p => (p.1, p.2.onOneCpu) := by
  unfold keyed
  cases sk with
  | none => rfl
  | some s =>
    rw [Option.bind_some, Option.bind_some, Option.map_map]
    rfl

theorem tcpEntryEvent_onOneCpu (ctx : HookContext n) (call : TcpCall) :
    tcpEntryEvent ctx.onOneCpu call =
      (tcpEntryEvent ctx call).map fun p => (p.1, p.2.onOneCpu) := by
  cases call with
  | connectExit sk ret =>
    rw [tcpEntryEvent, tcpEntryEvent]
    split_ifs
    · exact keyed_onOneCpu ctx sk fun sk => .account ctx sk _
    · rfl
  | sendmsgExit sk ret =>
    rw [tcpEntryEvent, tcpEntryEvent]
    split_ifs
    · exact keyed_onOneCpu ctx sk fun sk => .account ctx sk _
    · rfl
  | recvmsgExit sk flags ret =>
    rw [tcpEntryEvent, tcpEntryEvent]
    split_ifs
    · exact keyed_onOneCpu ctx sk fun sk => .account ctx sk _
    · rfl
  | setStateEntry sk state => exact keyed_onOneCpu ctx sk fun _ => .store ctx state

theorem entryEvents_onOneCpu (key : ChannelKey) (events : List (KernelEvent tcpProgram n)) :
    entryEvents key (events.map KernelEvent.onOneCpu) =
      (entryEvents key events).map EntryEvent.onOneCpu := by
  have hevent : ∀ ev : KernelEvent tcpProgram n,
      entryEvent key ev.onOneCpu = (entryEvent key ev).map EntryEvent.onOneCpu := by
    intro ev
    cases ev with
    | evict k =>
      rw [KernelEvent.onOneCpu, entryEvent, entryEvent]
      split_ifs <;> rfl
    | hook ctx call =>
      rw [KernelEvent.onOneCpu, entryEvent, entryEvent, tcpEntryEvent_onOneCpu]
      cases tcpEntryEvent ctx call with
      | none => rfl
      | some p =>
        rw [Option.map_some, Option.bind_some, Option.bind_some]
        split_ifs <;> rfl
  rw [entryEvents, entryEvents, List.filterMap_map, List.map_filterMap]
  exact List.filterMap_congr fun ev _ => hevent ev

theorem charges_onOneCpu (events : List (EntryEvent n)) :
    charges (events.map EntryEvent.onOneCpu) =
      (charges events).map fun charged => (charged.1.onOneCpu, charged.2) := by
  rw [charges, charges, List.filterMap_map, List.map_filterMap]
  exact List.filterMap_congr fun ev _ => by cases ev <;> rfl

theorem times_onOneCpu (events : List (EntryEvent n)) :
    times (events.map EntryEvent.onOneCpu) = times events := by
  rw [times, times, List.filterMap_map]
  exact List.filterMap_congr fun ev _ => by cases ev <;> rfl

theorem chargedTotal_onOneCpu (events : List (EntryEvent n)) (f : FlowField) :
    chargedTotal (events.map EntryEvent.onOneCpu) f = chargedTotal events f := by
  rw [chargedTotal, charges_onOneCpu, List.map_map]
  rfl

/-! ### The merged record -/

/-- An entry that is created in a run tracks its events. -/
theorem tracks_run {m : FlowMap n} {events : List (KernelEvent tcpProgram n)} {key : ChannelKey}
    {created : HookContext n × Charge} (hmissing : key ∉ m) (hevict : .evict key ∉ events)
    (hcreated : (charges (entryEvents key events)).head? = some created)
    (hroom : created.1.room = true) (htimes : (times (entryEvents key events)).Pairwise (· ≤ ·))
    (hnonzero : 0 ∉ times (entryEvents key events)) :
    ∃ slots last, (events.foldl KernelEvent.step m).get? key = some slots ∧
      (times (entryEvents key events)).getLast? = some last ∧
      Tracks (entryEvents key events) created.1.nowNs last slots := by
  have hdrop : .drop ∉ entryEvents key events := by
    intro hmem
    obtain ⟨ev, hev, hentry⟩ := List.mem_filterMap.mp hmem
    cases ev with
    | evict k =>
      rw [entryEvent] at hentry
      split_ifs at hentry with hk
      exact hevict (hk ▸ hev)
    | hook ctx call =>
      rw [entryEvent] at hentry
      obtain ⟨p, hp, hif⟩ := Option.bind_eq_some_iff.mp hentry
      split_ifs at hif with hk
      rw [Option.some.injEq] at hif
      exact tcpEntryEvent_ne_drop hp hif
  rw [get?_foldl_step, Dict.get?_eq_none.mpr hmissing]
  exact (tracks_foldl hdrop htimes hnonzero).2 created hcreated hroom

/-- For every run of the kernel that does not evict the entry of a key, on any CPUs: if the
first call that accounts to the key creates the entry, and the times it is touched at do not
go back, then the records of the CPUs, printed in any order, are parsed as one record. Its
start is the first call and its last time the last event, as in the record of a single CPU on
which the same happens, and its counters are the totals of the calls, modulo `2 ^ 64` and
exactly as long as they are below. -/
theorem merged_record_is_single {m : FlowMap n} {m₁ : FlowMap 1}
    {events : List (KernelEvent tcpProgram n)} {key : ChannelKey}
    {created : HookContext n × Charge} (hmissing : key ∉ m) (hmissing₁ : key ∉ m₁)
    (hevict : .evict key ∉ events)
    (hcreated : (charges (entryEvents key events)).head? = some created)
    (hroom : created.1.room = true) (htimes : (times (entryEvents key events)).Pairwise (· ≤ ·))
    (hnonzero : 0 ∉ times (entryEvents key events)) :
    ∃ slots record last, (events.foldl KernelEvent.step m).get? key = some slots ∧
      ((events.map KernelEvent.onOneCpu).foldl KernelEvent.step m₁).get? key = some record ∧
      (times (entryEvents key events)).getLast? = some last ∧
      (record 0).startNs = created.1.nowNs ∧ (record 0).lastNs = last ∧
      (∀ f, ((record 0).counter f).toNat = chargedTotal (entryEvents key events) f % 2 ^ 64) ∧
      ∀ order : List (Fin n), order.Perm (List.finRange n) → ∃ value,
        tcpDecoder.parseValue .null (printedValues slots order) = .ok value ∧
        value.startNs = created.1.nowNs.toNat ∧ value.lastNs = last.toNat ∧
        ∀ f, FlowCounters.field f value.counters ≡
            chargedTotal (entryEvents key events) f [ZMOD 2 ^ 64] ∧
          (chargedTotal (entryEvents key events) f < 2 ^ 64 →
            FlowCounters.field f value.counters = chargedTotal (entryEvents key events) f) := by
  have hmem := List.mem_of_mem_head? hcreated
  have hfirst : created.1.nowNs ≠ 0 := fun h => hnonzero (h ▸ time_mem_of_charged hmem)
  obtain ⟨slots, last, hslots, hlast, htracks⟩ :=
    tracks_run hmissing hevict hcreated hroom htimes hnonzero
  have hevict₁ : .evict key ∉ events.map KernelEvent.onOneCpu := by
    intro h
    obtain ⟨ev, hev, hone⟩ := List.mem_map.mp h
    cases ev with
    | evict k =>
      cases hone
      exact hevict hev
    | hook ctx call => cases hone
  have hentry := entryEvents_onOneCpu key events
  have htimes₁ : times (entryEvents key (events.map KernelEvent.onOneCpu)) =
      times (entryEvents key events) := by
    rw [hentry, times_onOneCpu]
  have hcreated₁ : (charges (entryEvents key (events.map KernelEvent.onOneCpu))).head? =
      some (created.1.onOneCpu, created.2) := by
    rw [hentry, charges_onOneCpu, List.head?_map, hcreated]
    rfl
  obtain ⟨record, last₁, hrecord, hlast₁, htracks₁⟩ := tracks_run hmissing₁ hevict₁ hcreated₁ hroom
    (htimes₁ ▸ htimes) (htimes₁ ▸ hnonzero)
  rw [htimes₁, hlast, Option.some.injEq] at hlast₁
  subst hlast₁
  refine ⟨slots, record, last, hslots, hrecord, hlast, ?_, ?_, fun f => ?_, fun order horder => ?_⟩
  · obtain ⟨cpu, hcpu⟩ := htracks₁.started
    rwa [Subsingleton.elim cpu 0] at hcpu
  · obtain ⟨cpu, hcpu⟩ := htracks₁.touched
    rwa [Subsingleton.elim cpu 0] at hcpu
  · have hmod := htracks₁.level_mod f
    have hlevel : slotsLevel record f = ((record 0).counter f).toNat := Fin.sum_univ_one _
    have hlt := ((record 0).counter f).isLt
    rw [hlevel, hentry, chargedTotal_onOneCpu] at hmod
    rw [← hmod, Int.emod_eq_of_lt (Int.natCast_nonneg _) (by omega)]
  · refine ⟨_, tcpDecoder.parseValue_printed slots order,
      startNs_mergedIn horder hfirst htracks.started htracks.starts,
      lastNs_mergedIn horder htracks.touched htracks.lasts, fun f => ?_⟩
    rw [field_mergedIn horder]
    have hmod := htracks.level_mod f
    have hle := htracks.level_le f
    have hpos := slotsLevel_nonneg slots f
    refine ⟨hmod, fun hlt => ?_⟩
    rw [Int.ModEq, Int.emod_eq_of_lt hpos (by omega), Int.emod_eq_of_lt (by omega) hlt] at hmod
    exact hmod

/-- The service connects on one CPU; its state changes and it sends on the other. -/
def splitRun : List (KernelEvent tcpProgram 2) :=
  [.hook (serviceContext 0 5) (.connectExit (some serviceSock) 0),
    .hook (serviceContext 1 6) (.setStateEntry (some serviceSock) 1),
    .hook (serviceContext 1 7) (.sendmsgExit (some serviceSock) 100)]

theorem merged_record_is_single_service :
    ∃ slots, (splitRun.foldl KernelEvent.step ∅).get? serviceKey = some slots ∧
      ∀ order : List (Fin 2), order.Perm (List.finRange 2) → ∃ value,
        tcpDecoder.parseValue .null (printedValues slots order) = .ok value ∧
        value.startNs = 5 ∧ value.lastNs = 7 ∧ value.txBytes = 100 ∧ value.connections = 1 := by
  obtain ⟨slots, record, last, hslots, -, hlast, -, -, -, hmerged⟩ :=
    @merged_record_is_single 2 ∅ ∅ splitRun serviceKey (serviceContext 0 5, { connections := 1 })
      (by decide) (by decide) (by simp [splitRun]) (by decide +kernel) rfl (by decide +kernel)
      (by decide +kernel)
  have hseven : (times (entryEvents serviceKey splitRun)).getLast? = some 7 := by decide +kernel
  rw [hlast, Option.some.injEq] at hseven
  subst hseven
  refine ⟨slots, hslots, fun order horder => ?_⟩
  obtain ⟨value, hvalue, hstart, hlastNs, hcounters⟩ := hmerged order horder
  refine ⟨value, hvalue, hstart, hlastNs, ?_, ?_⟩
  · exact (hcounters .txBytes).2 (by decide +kernel) |>.trans (by decide +kernel)
  · exact (hcounters .connections).2 (by decide +kernel) |>.trans (by decide +kernel)

/-! A socket on one CPU that sends `2 ^ 31 - 1` bytes with each of `2 ^ 34` calls. -/

def longContext (i : ℕ) : HookContext 1 where
  cpu := 0
  nowNs := BitVec.ofNat 64 (i + 1)
  pidTgid := 4242#64 <<< 32
  cgroupId := 77

def longCharge : Charge := { txBytes := 0x7FFFFFFF, txCalls := 1 }

def longRun (calls : ℕ) : List (KernelEvent tcpProgram 1) :=
  (List.range calls).map fun i =>
    .hook (longContext i) (.sendmsgExit (some serviceSock) 0x7FFFFFFF)

theorem entryEvents_longRun (calls : ℕ) :
    entryEvents serviceKey (longRun calls) =
      (List.range calls).map fun i => .account (longContext i) serviceSock longCharge := by
  have hevent : ∀ i, entryEvent serviceKey
      (.hook (longContext i) (.sendmsgExit (some serviceSock) 0x7FFFFFFF)) =
        some (.account (longContext i) serviceSock longCharge) := fun i => rfl
  rw [entryEvents, longRun, List.filterMap_map, ← List.filterMap_eq_map]
  exact List.filterMap_congr fun i _ => hevent i

theorem charges_longRun (calls : ℕ) : charges (entryEvents serviceKey (longRun calls)) =
    (List.range calls).map fun i => (longContext i, longCharge) := by
  rw [entryEvents_longRun, charges, List.filterMap_map, ← List.filterMap_eq_map]
  rfl

theorem times_longRun (calls : ℕ) : times (entryEvents serviceKey (longRun calls)) =
    (List.range calls).map fun i => BitVec.ofNat 64 (i + 1) := by
  rw [entryEvents_longRun, times, List.filterMap_map, ← List.filterMap_eq_map]
  rfl

theorem chargedTotal_longRun (calls : ℕ) :
    chargedTotal (entryEvents serviceKey (longRun calls)) .txBytes = calls * 0x7FFFFFFF := by
  rw [chargedTotal, charges_longRun, List.map_map]
  have hamount : ((fun charged : HookContext 1 × Charge => charged.2.amount .txBytes) ∘
      fun i => (longContext i, longCharge)) = fun _ => 0x7FFFFFFF := rfl
  rw [hamount, List.map_const', List.length_range, List.sum_replicate]
  exact nsmul_eq_mul calls _

/-- The run meets every condition, and its total is not the counter. -/
theorem long_run_wraps :
    ((charges (entryEvents serviceKey (longRun (2 ^ 34)))).head? = some (longContext 0, longCharge) ∧
      (times (entryEvents serviceKey (longRun (2 ^ 34)))).Pairwise (· < ·) ∧
      0 ∉ times (entryEvents serviceKey (longRun (2 ^ 34))) ∧
      .evict serviceKey ∉ longRun (2 ^ 34)) ∧
    ∃ slots value, ((longRun (2 ^ 34)).foldl KernelEvent.step ∅).get? serviceKey = some slots ∧
      tcpDecoder.parseValue .null (printedValues slots [0]) = .ok value ∧
      value.txBytes ≠ chargedTotal (entryEvents serviceKey (longRun (2 ^ 34))) .txBytes := by
  have hhead : (charges (entryEvents serviceKey (longRun (2 ^ 34)))).head? =
      some (longContext 0, longCharge) := by
    rw [charges_longRun, List.head?_map, List.head?_range, if_neg (by decide)]
    rfl
  have hordered : (times (entryEvents serviceKey (longRun (2 ^ 34)))).Pairwise (· < ·) := by
    rw [times_longRun, List.pairwise_map]
    refine List.pairwise_lt_range.imp_of_mem fun {i j} hi hj hlt => ?_
    rw [List.mem_range] at hi hj
    rw [BitVec.lt_def, BitVec.toNat_ofNat, BitVec.toNat_ofNat]
    omega
  have hnonzero : 0 ∉ times (entryEvents serviceKey (longRun (2 ^ 34))) := by
    rw [times_longRun]
    intro hmem
    obtain ⟨i, hi, hzero⟩ := List.mem_map.mp hmem
    rw [List.mem_range] at hi
    have hnat := congrArg BitVec.toNat hzero
    have hzero64 : (0 : BitVec 64).toNat = 0 := rfl
    rw [BitVec.toNat_ofNat, hzero64] at hnat
    omega
  have hevict : .evict serviceKey ∉ longRun (2 ^ 34) := by
    intro hmem
    obtain ⟨i, -, hi⟩ := List.mem_map.mp hmem
    cases hi
  refine ⟨⟨hhead, hordered, hnonzero, hevict⟩, ?_⟩
  have hmissing : serviceKey ∉ (∅ : FlowMap 1) := Dict.get?_eq_none.mp (Dict.get?_empty serviceKey)
  obtain ⟨slots, last, hslots, -, -⟩ := tracks_run hmissing hevict hhead rfl
    (hordered.imp fun h => BitVec.le_of_lt h) hnonzero
  refine ⟨slots, _, hslots, tcpDecoder.parseValue_printed slots [0], ?_⟩
  have hperm : [(0 : Fin 1)].Perm (List.finRange 1) := List.Perm.refl _
  have hfield := @field_mergedIn 1 slots [0] hperm .txBytes
  have hlevel : slotsLevel slots .txBytes = ((slots 0).counter .txBytes).toNat := Fin.sum_univ_one _
  have hlt := ((slots 0).counter .txBytes).isLt
  rw [chargedTotal_longRun]
  have hvalue : (mergedIn slots [0]).txBytes = ((slots 0).counter .txBytes).toNat :=
    hfield.trans hlevel
  rw [hvalue]
  push_cast
  omega

end UdpAnalyzer
