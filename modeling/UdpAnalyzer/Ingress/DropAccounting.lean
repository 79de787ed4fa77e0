import Mathlib.Data.Nat.ModEq
import UdpAnalyzer.Ingress.Datagrams

/-! No frame disappears without a trace: every run of the ingress program increments one
packet counter or one drop counter, so that all of them together count the runs. The
counters have 64 bits, and so the count is one modulo `2 ^ 64`. -/

namespace UdpAnalyzer

variable {n : ℕ}

namespace IngressMaps

/-- The packets of all entries and CPUs. -/
def packetsTotal (maps : IngressMaps n) : ℕ := maps.counters.total fun value => value.packets.toNat

/-- The drops of all reasons and CPUs. -/
def dropsTotal (maps : IngressMaps n) : ℕ := ∑ reason, ∑ cpu, (maps.drops reason cpu).toNat

/-- All counters together. -/
def grandTotal (maps : IngressMaps n) : ℕ := maps.packetsTotal + maps.dropsTotal

/-- A drop replaces one counter of a reason by its successor. -/
theorem dropsTotal_drop (maps : IngressMaps n) (cpu : Fin n) (reason : DropReason) :
    (maps.drop cpu reason).dropsTotal + (maps.drops reason cpu).toNat =
      maps.dropsTotal + (maps.drops reason cpu + 1).toNat := by
  have hslot := PerCpuMap.sum_update BitVec.toNat (maps.drops reason) cpu
    (maps.drops reason cpu + 1)
  have hreason := PerCpuMap.sum_update (fun slots : Fin n → BitVec 64 => ∑ c, (slots c).toNat)
    maps.drops reason (Function.update (maps.drops reason) cpu (maps.drops reason cpu + 1))
  have hdrop : (maps.drop cpu reason).dropsTotal + ∑ c, (maps.drops reason c).toNat =
      maps.dropsTotal + ∑ c, (Function.update (maps.drops reason) cpu
        (maps.drops reason cpu + 1) c).toNat := hreason
  omega

end IngressMaps

/-! ### One run -/

/-- One counter, of packets or of drops, is incremented, and the others stay. -/
inductive CountsOnce (maps : IngressMaps n) (cpu : Fin n) (maps' : IngressMaps n) : Prop
  | packet (key : UdpKey) (payload : BitVec 64)
      (counter : ∀ k c, maps'.counter k c =
        if k = key ∧ c = cpu then (maps.counter k c).count payload else maps.counter k c)
      (drops : maps'.drops = maps.drops)
  | drop (reason : DropReason)
      (counter : maps'.counter = maps.counter)
      (drops : ∀ r c, maps'.drops r c =
        if r = reason ∧ c = cpu then maps.drops r c + 1 else maps.drops r c)

/-- The total replaces the value of one counter by its successor. -/
def Increments (maps maps' : IngressMaps n) : Prop :=
  ∃ old : BitVec 64, maps'.grandTotal + old.toNat = maps.grandTotal + (old + 1).toNat

theorem drops_drop (maps : IngressMaps n) (cpu : Fin n) (reason r : DropReason) (c : Fin n) :
    (maps.drop cpu reason).drops r c =
      if r = reason ∧ c = cpu then maps.drops r c + 1 else maps.drops r c := by
  show Function.update maps.drops reason _ r c = _
  by_cases hr : r = reason
  · subst hr
    rw [Function.update_self]
    by_cases hc : c = cpu
    · subst hc
      rw [Function.update_self, if_pos ⟨rfl, rfl⟩]
    · rw [Function.update_of_ne hc, if_neg fun h => hc h.2]
  · rw [Function.update_of_ne hr, if_neg fun h => hr h.1]

theorem increments_drop (maps : IngressMaps n) (cpu : Fin n) (reason : DropReason) :
    Increments maps (maps.drop cpu reason) := by
  refine ⟨maps.drops reason cpu, ?_⟩
  have hdrops := maps.dropsTotal_drop cpu reason
  have hpackets : (maps.drop cpu reason).packetsTotal = maps.packetsTotal := rfl
  unfold IngressMaps.grandTotal
  omega

section
variable (a : Arrival n) (key : UdpKey) (maps : IngressMaps n)

/-- Making room for a key changes no counter. -/
theorem grandTotal_prepared :
    IngressMaps.grandTotal { maps with counters := a.prepared key maps } = maps.grandTotal := by
  have hpackets := total_prepared (fun value : UdpCounters => value.packets.toNat) rfl a key maps
  exact congrArg (· + maps.dropsTotal) hpackets

theorem countsOnce_countUdp4 (payload : BitVec 64) :
    CountsOnce maps a.cpu (countUdp4 a key payload maps) := by
  by_cases hroom : key ∈ maps.counters ∨ a.room = true
  · refine .packet key payload (fun k c => ?_) ?_
    · rw [counter_countUdp4 hroom]
      split_ifs with hown
      · rw [hown.1, hown.2]
      · rfl
    · rw [countUdp4_eq, if_pos hroom]
  · rw [countUdp4_eq, if_neg hroom]
    refine .drop .mapFull ?_ (drops_drop _ a.cpu .mapFull)
    funext k c
    exact slot_prepared a key maps k c

theorem increments_countUdp4 (payload : BitVec 64) :
    Increments maps (countUdp4 a key payload maps) := by
  by_cases hroom : key ∈ maps.counters ∨ a.room = true
  · have hlookup := lookupElem_prepared a key maps
    rw [if_pos hroom] at hlookup
    have hwrite := PerCpuMap.total_writeSlot (fun value : UdpCounters => value.packets.toNat)
      hlookup ((maps.counter key a.cpu).count payload)
    rw [total_prepared (fun value : UdpCounters => value.packets.toNat) rfl] at hwrite
    refine ⟨(maps.counter key a.cpu).packets, ?_⟩
    rw [countUdp4_eq, if_pos hroom]
    unfold IngressMaps.grandTotal
    rw [add_right_comm]
    refine (congrArg (· + maps.dropsTotal) hwrite).trans ?_
    exact add_right_comm _ _ _
  · obtain ⟨old, hold⟩ :=
      increments_drop { maps with counters := a.prepared key maps } a.cpu .mapFull
    rw [grandTotal_prepared] at hold
    rw [countUdp4_eq, if_neg hroom]
    exact ⟨old, hold⟩

end

theorem countsOnce_handle (maps : IngressMaps n) (a : Arrival n) :
    CountsOnce maps a.cpu (maps.handle a) := by
  unfold IngressMaps.handle
  cases a.pulled with
  | none => exact .drop .pullFail rfl (drops_drop maps a.cpu .pullFail)
  | some linear =>
    dsimp only
    cases a.frame.outcome linear with
    | error reason => exact .drop reason rfl (drops_drop maps a.cpu reason)
    | ok counted => exact countsOnce_countUdp4 a counted.1 maps counted.2

theorem increments_handle (maps : IngressMaps n) (a : Arrival n) :
    Increments maps (maps.handle a) := by
  unfold IngressMaps.handle
  cases a.pulled with
  | none => exact increments_drop maps a.cpu .pullFail
  | some linear =>
    dsimp only
    cases a.frame.outcome linear with
    | error reason => exact increments_drop maps a.cpu reason
    | ok counted => exact increments_countUdp4 a counted.1 maps counted.2

/-! ### A sequence of runs -/

/-- A total that does not wrap grows by one. -/
theorem Increments.total {maps maps' : IngressMaps n} (h : Increments maps maps') :
    maps'.grandTotal ≡ maps.grandTotal + 1 [MOD 2 ^ 64] ∧
      (maps.grandTotal + 1 < 2 ^ 64 → maps'.grandTotal ≤ maps.grandTotal + 1) := by
  obtain ⟨old, hold⟩ := h
  rw [BitVec.toNat_add] at hold
  have hone : (1 : BitVec 64).toNat = 1 := rfl
  rw [hone] at hold
  unfold Nat.ModEq
  have hlt := old.isLt
  constructor <;> omega

/-- The counters after a run of the program on each of some frames, from any counters. -/
theorem grandTotal_foldl (arrivals : List (Arrival n)) (maps : IngressMaps n) :
    (arrivals.foldl IngressMaps.handle maps).grandTotal ≡
        maps.grandTotal + arrivals.length [MOD 2 ^ 64] ∧
      (maps.grandTotal + arrivals.length < 2 ^ 64 →
        (arrivals.foldl IngressMaps.handle maps).grandTotal ≤ maps.grandTotal + arrivals.length) := by
  induction arrivals generalizing maps with
  | nil => exact ⟨Nat.ModEq.refl _, fun _ => le_refl _⟩
  | cons a rest ih =>
    obtain ⟨hmod, hexact⟩ := (increments_handle maps a).total
    obtain ⟨ihmod, ihexact⟩ := ih (maps.handle a)
    have hlength : maps.grandTotal + (a :: rest).length = maps.grandTotal + 1 + rest.length := by
      rw [List.length_cons]
      omega
    rw [List.foldl_cons, hlength]
    refine ⟨ihmod.trans (hmod.add_right _), fun hlt => ?_⟩
    have hone := hexact (by omega)
    exact (ihexact (by omega)).trans (by omega)

/-- Every run of the program reads inside the frame and increments one counter. After any
sequence of frames, on any CPUs and with room in the map or without, the counters together
are the number of frames modulo `2 ^ 64`, and exactly that number below `2 ^ 64`. -/
theorem frames_leave_trace :
    (∀ (maps : IngressMaps n) (a : Arrival n), ∃ maps', udpIngress maps a = some maps' ∧
      CountsOnce maps a.cpu maps') ∧
    ∀ arrivals : List (Arrival n), ∃ maps, ingressRun arrivals = some maps ∧
      maps.packetsTotal + maps.dropsTotal ≡ arrivals.length [MOD 2 ^ 64] ∧
      (arrivals.length < 2 ^ 64 → maps.packetsTotal + maps.dropsTotal = arrivals.length) := by
  refine ⟨fun maps a => ⟨_, udpIngress_eq maps a, countsOnce_handle maps a⟩, fun arrivals => ?_⟩
  obtain ⟨hmod, hle⟩ := grandTotal_foldl arrivals ({} : IngressMaps n)
  have hzero : IngressMaps.grandTotal ({} : IngressMaps n) = 0 := by
    unfold IngressMaps.grandTotal IngressMaps.packetsTotal IngressMaps.dropsTotal
    simp [PerCpuMap.total]
  rw [hzero, Nat.zero_add] at hmod hle
  refine ⟨_, ingressRun_eq arrivals, hmod, fun hlt => ?_⟩
  exact hmod.eq_of_lt_of_lt ((hle hlt).trans_lt hlt) hlt

/-! The counters of a machine with one CPU, on which nothing but empty frames arrives. -/

def emptyArrival : Arrival 1 where
  frame := { bytes := [], ifindex := 2 }
  cpu := 0
  pulled := none
  pulled_le := by simp
  room := true

theorem run_emptyArrival (k : ℕ) :
    ((List.replicate k emptyArrival).foldl IngressMaps.handle {}).counters = ∅ ∧
      ((List.replicate k emptyArrival).foldl IngressMaps.handle {}).drops =
        fun reason _ => if reason = .pullFail then BitVec.ofNat 64 k else 0 := by
  induction k with
  | zero =>
    refine ⟨rfl, ?_⟩
    funext reason cpu
    exact (ite_self _).symm
  | succ k ih =>
    rw [List.replicate_succ', List.foldl_append]
    refine ⟨ih.1, ?_⟩
    funext reason cpu
    obtain rfl : cpu = 0 := Subsingleton.elim _ _
    have hdrops := drops_drop ((List.replicate k emptyArrival).foldl IngressMaps.handle {}) 0
      .pullFail reason 0
    refine hdrops.trans ?_
    rw [ih.2]
    dsimp only
    by_cases hreason : reason = .pullFail
    · rw [if_pos ⟨hreason, rfl⟩, if_pos hreason, if_pos hreason]
      exact (BitVec.ofNat_add k 1).symm
    · rw [if_neg fun h => hreason h.1, if_neg hreason, if_neg hreason]

/-- After `2 ^ 64` frames the counters are zero again. -/
theorem counters_wrap :
    ¬ ∃ maps, ingressRun (List.replicate (2 ^ 64) emptyArrival) = some maps ∧
      maps.packetsTotal + maps.dropsTotal = (List.replicate (2 ^ 64) emptyArrival).length := by
  rintro ⟨maps, hrun, htotal⟩
  rw [ingressRun_eq, Option.some.injEq] at hrun
  obtain ⟨hcounters, hdrops⟩ := run_emptyArrival (2 ^ 64)
  rw [hrun] at hcounters hdrops
  have hpackets : maps.packetsTotal = 0 := by
    unfold IngressMaps.packetsTotal
    rw [hcounters]
    rfl
  have hwrapped : BitVec.ofNat 64 (2 ^ 64) = 0 := by decide
  have hdropped : maps.dropsTotal = 0 := by
    unfold IngressMaps.dropsTotal
    rw [hdrops, hwrapped]
    simp
  rw [hpackets, hdropped, List.length_replicate] at htotal
  omega

end UdpAnalyzer
