import UdpAnalyzer.Lib.Meter

/-! Reading a per-CPU map while the machine runs on. A sweep goes through the keys and copies every
record word by word, each word at a moment of its own, so what it has in the end need not have
been in the map at any one time. A counter only grows, though: from one sweep to a later one, a
counter on one CPU gains what the steps between its two moments are charged on that CPU, so that
sweep after sweep no step is counted twice or left out. -/

namespace UdpAnalyzer

/-- The keys a sweep lists. A moment is the number of steps made since the sweep began: a key is
found at one, and then every word under it is read. -/
structure Sweep (n : ℕ) (K P : Type*) where
  keys : List K
  nodup : keys.Nodup
  found : K → ℕ
  moment : K → Fin n → P → ℕ
  found_le : ∀ k cpu p, found k ≤ moment k cpu p

/-- A record in words, and the counter a word holds. -/
structure Words (V F P : Type*) (field : F → V → BitVec 64) where
  word : F → P
  /-- The record with each word taken from another one. -/
  assemble : (P → V) → V
  field_assemble : ∀ f read, field f (assemble read) = field f (read (word f))

namespace Meter

variable {σ α K F : Type*} {n : ℕ} (M : Meter σ α K F n)

/-- What a run puts on a counter of one CPU. -/
def meteredOn (k : K) (cpu : Fin n) (f : F) : σ → List α → ℕ
  | _, [] => 0
  | s, a :: rest => M.amount s a k cpu f + meteredOn k cpu f (M.step s a) rest

/-- A whole run on one CPU, while the counter fits. -/
theorem slot_foldl {k : K} {cpu : Fin n} {f : F} {s : σ} {as : List α}
    (hfit : (M.slot s k cpu f).toNat + M.meteredOn k cpu f s as < 2 ^ 64) :
    (M.slot (as.foldl M.step s) k cpu f).toNat =
      (M.slot s k cpu f).toNat + M.meteredOn k cpu f s as := by
  induction as generalizing s with
  | nil => rfl
  | cons a rest ih =>
    rw [meteredOn, ← Nat.add_assoc] at hfit ⊢
    have hslot : M.slot (M.step s a) k cpu f =
        M.slot s k cpu f + BitVec.ofNat 64 (M.amount s a k cpu f) := M.slot_step s a k cpu f
    have hstep : (M.slot (M.step s a) k cpu f).toNat =
        (M.slot s k cpu f).toNat + M.amount s a k cpu f := by
      rw [hslot, BitVec.toNat_add, BitVec.toNat_ofNat, Nat.add_mod_mod, Nat.mod_eq_of_lt (by omega)]
    rw [← hstep] at hfit ⊢
    exact ih hfit

end Meter

namespace AccountedTable

variable {σ α K V F P : Type*} {n : ℕ} [DecidableEq K] (T : AccountedTable σ α K V F n)

/-! ### One counter on one CPU -/

/-- What a step is charged for a counter on a CPU. -/
def chargeOn (k : K) (cpu : Fin n) (f : F) (a : α) : ℕ :=
  (T.entry a).elim 0 fun e => if k = e.key ∧ cpu = e.cpu then T.amount a f else 0

/-- What a run is charged for a counter on a CPU. -/
def chargedOn (k : K) (cpu : Fin n) (f : F) (as : List α) : ℕ := (as.map (T.chargeOn k cpu f)).sum

theorem chargedOn_append (k : K) (cpu : Fin n) (f : F) (as bs : List α) :
    T.chargedOn k cpu f (as ++ bs) = T.chargedOn k cpu f as + T.chargedOn k cpu f bs := by
  unfold chargedOn
  rw [List.map_append, List.sum_append]

theorem chargedOn_take_le (k : K) (cpu : Fin n) (f : F) (as : List α) (m : ℕ) :
    T.chargedOn k cpu f (as.take m) ≤ T.chargedOn k cpu f as := by
  conv_rhs => rw [← List.take_append_drop m as, chargedOn_append]
  exact Nat.le_add_right _ _

theorem chargeOn_le (k : K) (cpu : Fin n) (f : F) (a : α) :
    T.chargeOn k cpu f a ≤ T.charged k f a := by
  unfold chargeOn charged
  cases T.entry a with
  | none => exact le_rfl
  | some e => exact ite_le_ite_of_imp And.left _

theorem chargedOn_le (k : K) (cpu : Fin n) (f : F) (as : List α) :
    T.chargedOn k cpu f as ≤ T.chargedIn k f as :=
  List.sum_le_sum fun a _ => T.chargeOn_le k cpu f a

/-- The counter. -/
def slotOf (s : σ) (k : K) (cpu : Fin n) (f : F) : BitVec 64 :=
  T.field f ((T.table s).slot T.zero k cpu)

theorem slotOf_eq (s : σ) (k : K) (cpu : Fin n) (f : F) :
    T.slotOf s k cpu f = T.meter.slot s k cpu f := T.field_slot s k cpu f

theorem meteredOn_le (k : K) (cpu : Fin n) (f : F) (s : σ) (as : List α) :
    T.meter.meteredOn k cpu f s as ≤ T.chargedOn k cpu f as := by
  induction as generalizing s with
  | nil => exact le_rfl
  | cons a rest ih =>
    rw [Meter.meteredOn, chargedOn, List.map_cons, List.sum_cons]
    refine add_le_add ?_ (ih _)
    show T.put s a k cpu f ≤ T.chargeOn k cpu f a
    unfold put chargeOn
    cases T.entry a with
    | none => exact le_rfl
    | some e => exact ite_le_ite_of_imp (fun h => ⟨h.1, h.2.1⟩) _

/-- A key that is there is put all it is charged. -/
theorem meteredOn_eq {k : K} (cpu : Fin n) (f : F) {s : σ} (h : k ∈ T.table s) (as : List α) :
    T.meter.meteredOn k cpu f s as = T.chargedOn k cpu f as := by
  induction as generalizing s with
  | nil => rfl
  | cons a rest ih =>
    have hkept : k ∈ T.table (T.step s a) := T.mem_foldl h [a]
    rw [Meter.meteredOn, chargedOn, List.map_cons, List.sum_cons]
    refine congrArg₂ (· + ·) ?_ (ih hkept)
    show T.put s a k cpu f = T.chargeOn k cpu f a
    unfold put chargeOn
    cases T.entry a with
    | none => rfl
    | some e => exact if_congr (and_congr_right fun _ => and_iff_left (.inl h)) rfl rfl

/-- In a run that started without the key, a counter of a key that is there rises by what the
steps are charged on its CPU. -/
theorem slotOf_append {k : K} {cpu : Fin n} {f : F} {s : σ} (hempty : (T.table s).get? k = none)
    {as bs : List α} (hpresent : k ∈ T.table (as.foldl T.step s))
    (hfit : T.chargedOn k cpu f (as ++ bs) < 2 ^ 64) :
    (T.slotOf ((as ++ bs).foldl T.step s) k cpu f).toNat =
      (T.slotOf (as.foldl T.step s) k cpu f).toNat + T.chargedOn k cpu f bs := by
  rw [chargedOn_append] at hfit
  have hzero : (T.meter.slot s k cpu f).toNat = 0 := by
    show (Option.elim (Option.map _ _) _ _ : BitVec 64).toNat = 0
    rw [hempty]
    rfl
  have has := T.meteredOn_le k cpu f s as
  have hstart : (T.meter.slot (as.foldl T.meter.step s) k cpu f).toNat =
      (T.meter.slot s k cpu f).toNat + T.meter.meteredOn k cpu f s as :=
    T.meter.slot_foldl (by omega)
  have hbs := T.meteredOn_eq cpu f hpresent bs
  rw [T.slotOf_eq, T.slotOf_eq, List.foldl_append, ← hbs]
  refine T.meter.slot_foldl (s := as.foldl T.step s) ?_
  show (T.meter.slot (as.foldl T.meter.step s) k cpu f).toNat + _ < _
  omega

/-! ### Sweeps -/

/-- What a sweep makes of the map, with the steps made during it. -/
def sweep (W : Words V F P T.field) (w : Sweep n K P) (s : σ) (during : List α) :
    PerCpuMap n K V where
  items := w.keys.map fun k => (k, fun cpu => W.assemble fun p =>
    (T.table ((during.take (w.moment k cpu p)).foldl T.step s)).slot T.zero k cpu)
  nodup := by
    rw [List.map_map]
    exact (List.map_id w.keys).symm ▸ w.nodup

/-- A sweep lists the keys it finds, and it finds every key that was there when it began. -/
structure Faithful (w : Sweep n K P) (s : σ) (during : List α) : Prop where
  present : ∀ k ∈ w.keys, k ∈ T.table ((during.take (w.found k)).foldl T.step s)
  complete : ∀ k ∈ T.table s, k ∈ w.keys

instance (w : Sweep n K P) (s : σ) (during : List α) : Decidable (T.Faithful w s during) :=
  decidable_of_iff
    ((∀ k ∈ w.keys, k ∈ T.table ((during.take (w.found k)).foldl T.step s)) ∧
      ∀ k ∈ (T.table s).keys, k ∈ w.keys)
    ⟨fun h => ⟨h.1, h.2⟩, fun h => ⟨h.present, h.complete⟩⟩

variable {W : Words V F P T.field}

theorem mem_sweep {w : Sweep n K P} {s : σ} {during : List α} {k : K} :
    k ∈ T.sweep W w s during ↔ k ∈ w.keys := by
  rw [Dict.mem_def, Dict.keys, sweep, List.map_map]
  exact (List.map_id w.keys).symm ▸ Iff.rfl

theorem get?_sweep {w : Sweep n K P} {s : σ} {during : List α} {k : K} (h : k ∈ w.keys) :
    (T.sweep W w s during).get? k = some fun cpu => W.assemble fun p =>
      (T.table ((during.take (w.moment k cpu p)).foldl T.step s)).slot T.zero k cpu :=
  Dict.get?_eq_some.mpr (List.mem_map.mpr ⟨k, h, rfl⟩)

/-- The counters of a map. -/
def countsOf (m : PerCpuMap n K V) : Snapshot K F := fun k =>
  (m.get? k).map fun v f => ∑ cpu, ((T.field f (v cpu)).toNat : ℤ)

theorem countsOf_sweep_of_mem {w : Sweep n K P} {s : σ} {during : List α} {k : K}
    (h : k ∈ w.keys) : T.countsOf (T.sweep W w s during) k = some fun f => ∑ cpu,
      ((T.slotOf ((during.take (w.moment k cpu (W.word f))).foldl T.step s) k cpu f).toNat : ℤ) := by
  rw [countsOf, T.get?_sweep h, Option.map_some]
  refine congrArg some (funext fun f => Finset.sum_congr rfl fun cpu _ => ?_)
  rw [W.field_assemble]
  rfl

theorem countsOf_sweep_of_not_mem {w : Sweep n K P} {s : σ} {during : List α} {k : K}
    (h : k ∉ w.keys) : T.countsOf (T.sweep W w s during) k = none := by
  rw [countsOf, Dict.get?_eq_none.mpr (fun hmem => h (T.mem_sweep.mp hmem))]
  rfl

variable {T}

/-- A key that is found is there when its words are read. -/
theorem Faithful.mem_read {w : Sweep n K P} {s : σ} {during : List α} (h : T.Faithful w s during)
    {k : K} (hk : k ∈ w.keys) (cpu : Fin n) (p : P) :
    k ∈ T.table ((during.take (w.moment k cpu p)).foldl T.step s) := by
  obtain ⟨rest, hrest⟩ := List.take_prefix_take_left (l := during) (w.found_le k cpu p)
  rw [← hrest, List.foldl_append]
  exact T.mem_foldl (h.present k hk) rest

/-- A key that a sweep lists is there after it. -/
theorem Faithful.mem_after {w : Sweep n K P} {s : σ} {during : List α} (h : T.Faithful w s during)
    {k : K} (hk : k ∈ w.keys) : k ∈ T.table (during.foldl T.step s) := by
  have hkept := T.mem_foldl (h.present k hk) (during.drop (w.found k))
  rwa [← List.foldl_append, List.take_append_drop] at hkept

/-- From one sweep to a later one, a key gains on every CPU what is charged between the moments at
which its counter was read. -/
theorem gain_sweeps {w w' : Sweep n K P} {s : σ} {as during bs during' : List α} {k : K} {f : F}
    (hempty : (T.table s).get? k = none) (h : T.Faithful w (as.foldl T.step s) during)
    (hk : k ∈ w.keys) (hk' : k ∈ w'.keys)
    (hfit : T.chargedIn k f (as ++ during ++ bs ++ during') < 2 ^ 64) :
    Snapshot.gain (T.countsOf (T.sweep W w (as.foldl T.step s) during))
        (T.countsOf (T.sweep W w' ((as ++ during ++ bs).foldl T.step s) during')) k f =
      ((∑ cpu, T.chargedOn k cpu f (during.drop (w.moment k cpu (W.word f)) ++ bs ++
        during'.take (w'.moment k cpu (W.word f))) : ℕ) : ℤ) := by
  rw [Snapshot.gain_of_some (T.countsOf_sweep_of_mem hk) (T.countsOf_sweep_of_mem hk')]
  have hslot : ∀ cpu, (T.slotOf ((during'.take (w'.moment k cpu (W.word f))).foldl T.step
        ((as ++ during ++ bs).foldl T.step s)) k cpu f).toNat =
      (T.slotOf ((during.take (w.moment k cpu (W.word f))).foldl T.step (as.foldl T.step s))
        k cpu f).toNat + T.chargedOn k cpu f (during.drop (w.moment k cpu (W.word f)) ++ bs ++
        during'.take (w'.moment k cpu (W.word f))) := by
    intro cpu
    have hread := h.mem_read hk cpu (W.word f)
    rw [← List.foldl_append] at hread ⊢
    rw [← List.foldl_append]
    have hsplit : as ++ during ++ bs ++ during'.take (w'.moment k cpu (W.word f)) =
        (as ++ during.take (w.moment k cpu (W.word f))) ++
          (during.drop (w.moment k cpu (W.word f)) ++ bs ++
            during'.take (w'.moment k cpu (W.word f))) := by
      conv_lhs => rw [← List.take_append_drop (w.moment k cpu (W.word f)) during]
      simp only [List.append_assoc]
    have hle : T.chargedOn k cpu f (as ++ during ++ bs ++
        during'.take (w'.moment k cpu (W.word f))) < 2 ^ 64 := by
      refine lt_of_le_of_lt (le_trans ?_ (T.chargedOn_le k cpu f _)) hfit
      rw [T.chargedOn_append _ _ _ _ during', T.chargedOn_append _ _ _ _ (during'.take _)]
      exact Nat.add_le_add_left (T.chargedOn_take_le k cpu f _ _) _
    rw [hsplit] at hle ⊢
    exact T.slotOf_append hempty hread hle
  have hsum : ∀ g h c : Fin n → ℕ, (∀ cpu, g cpu = h cpu + c cpu) →
      max ((∑ cpu, (g cpu : ℤ)) - ∑ cpu, (h cpu : ℤ)) 0 = ((∑ cpu, c cpu : ℕ) : ℤ) := by
    intro g h c hg
    rw [← Finset.sum_sub_distrib, Nat.cast_sum, Finset.sum_congr rfl fun cpu _ =>
      show (g cpu : ℤ) - h cpu = c cpu by have hcpu := hg cpu; omega]
    exact max_eq_left (Finset.sum_nonneg fun cpu _ => Int.natCast_nonneg _)
  exact hsum _ _ _ hslot

end AccountedTable

end UdpAnalyzer
