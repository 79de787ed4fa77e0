import UdpAnalyzer.Lifecycle.Collector

/-! Who may take a tc filter away. Any number of collectors are constructed and closed
on one machine, their calls interleaved, and at most one of them attaches. Its filter
stays as long as no collector is closed at the same interface and preference that did
not attach, but detaches when closed. -/

namespace UdpAnalyzer

open Method

section Ensures

variable {me : ℕ} {m : Machine}

namespace EbpfCollector

/-! ### The filter of an attaching collector -/

/-- The calls of a collector that has nothing to do with filters. -/
def Quiet (op : SystemCall) : Prop := op.kind = .plain ∨ op.kind = .loader

theorem Quiet.kind_ne {op : SystemCall} (h : Quiet op) : op.kind ≠ .filters := by
  rcases h with h | h <;> rw [h] <;> decide

/-- The terms of a collector whose filters the others leave alone. -/
def ownFilter (me : ℕ) : Contract SystemCall Reply Machine where
  replies _ _ _ := True
  calls _ _ := True
  rely s t := ∀ ifname pref, (ifname, pref, me) ∈ s.filters → (ifname, pref, me) ∈ t.filters
  rely_refl _ _ _ h := h
  rely_trans _ _ _ h h' ifname pref hs := h' ifname pref (h ifname pref hs)

/-- The collector's own filter is installed. -/
def Installed (me : ℕ) (a : TcBpfAttachment) (m : Machine) : Prop :=
  (a.ifname, a.pref, me) ∈ m.filters

theorem serve_filterAdd {ifname objectPath sec : Str} {pref : ℤ} {viaSudo : Bool} {r : Reply}
    {out : CompletedProcess}
    (h : (serve me (.run (.tcFilterAdd ifname pref objectPath sec) viaSudo) r m).1 = .ok out) :
    (serve me (.run (.tcFilterAdd ifname pref objectPath sec) viaSudo) r m).2 =
      if out.returncode = 0 then m.addFilter ifname pref me else m := by
  have hreply : r (.run (.tcFilterAdd ifname pref objectPath sec) viaSudo) = .ok out := h
  show Machine.effect me _ (r _) m = _
  rw [hreply]
  rfl

/-- Attaching installs the filter or raises. -/
theorem attach_installs (self : TcBpfAttachment) :
    TcBpfAttachment.attach.Ensures (serve me) (ownFilter me)
      (fun r a t => r = .ok () → Installed me a t) self m := by
  have hraise : ∀ {e : PyExc} {a : TcBpfAttachment} {t : Machine},
      (.error e : Except PyExc Unit) = .ok () → Installed me a t := fun h => by cases h
  apply ensures_bind
  apply ensures_self
  intro t _
  apply ensures_bind_ask (SystemCall.pathExists self.objectPath)
  intro t _
  refine ⟨trivial, fun r _ t _ => ⟨fun e _ => hraise, fun present _ => ?_⟩⟩
  split
  · apply ensures_bind
    apply runCommand_ensures
    intro t _
    refine ⟨trivial, fun r _ t _ => ⟨fun e _ => hraise, fun out _ _ => ?_⟩⟩
    dsimp only
    split
    · exact ensures_raise fun _ _ => hraise
    apply ensures_bind
    have hdetach : (TcBpfAttachment.detach true).Keeps (serve me) (fun _ => True)
        TcBpfAttachment.place := TcBpfAttachment.detach_keeps (fun _ _ => trivial) true
    apply (hdetach.ensures (fun _ _ _ => trivial) self _).mono
    intro r a t hplace
    obtain ⟨hifname, hpref⟩ := Prod.mk.inj hplace
    cases r with
    | error e => exact hraise
    | ok _ =>
      apply ensures_bind
      apply runCommand_ensures
      intro t _
      refine ⟨trivial, fun r _ u hu => ⟨fun e _ => hraise, fun out hout hzero => ?_⟩⟩
      apply ensures_update
      intro v hv _
      apply hv
      apply hu
      rw [serve_filterAdd hout, if_pos (hzero rfl), hifname, hpref]
      exact List.mem_append_right _ List.mem_cons_self
  · exact ensures_raise fun _ _ => hraise

/-- A method that leaves the filters alone keeps the collector's own one. -/
theorem quiet_installed {S α V : Type} {view : S → V} {f : Meth S α}
    (h : f.Keeps (serve me) Quiet view) {a : TcBpfAttachment} (hm : Installed me a m) (self : S) :
    f.Ensures (serve me) (ownFilter me)
      (fun _ self' t => view self' = view self ∧ Installed me a t) self m := by
  have hrely : ∀ s t, (ownFilter me).rely s t → Installed me a s → Installed me a t :=
    fun _ _ hst => hst a.ifname a.pref
  have hserve : ∀ op r s, Quiet op → (ownFilter me).replies op r s → Installed me a s →
      Installed me a (serve me op r s).2 := by
    intro op r s hop _ hs
    show _ ∈ (Machine.effect me op _ s).filters
    rw [Machine.effect_filters hop.kind_ne]
    exact hs
  exact h.frame (fun _ _ _ => trivial) hrely hserve self hm

theorem setUp_installs {args : CollectorArgs} (hattach : args.attach = true)
    (self : EbpfCollector) :
    (setUp args).Ensures (serve me) (ownFilter me)
      (fun r c t => r = .ok () → Installed me c.attachment t) self m := by
  unfold setUp
  rw [hattach, if_pos rfl]
  apply ensures_bind
  apply ensures_within
  apply (attach_installs self.attachment).mono
  intro r a t ha
  cases r with
  | error e => exact fun h => by cases h
  | ok _ =>
    apply ensures_bind
    have hrefresh : (within reader (fun r c => { c with reader := r })
        BpftoolMapReader.refreshMapId).Keeps (serve me) Quiet attachment :=
      keeps_within (refreshMapId_keeps fun _ => .inl) fun _ _ => rfl
    apply (quiet_installed hrefresh (ha rfl) _).mono
    intro r c t ⟨hview, hc⟩
    cases r with
    | error e => exact fun h => by cases h
    | ok _ =>
      have hconfigure : (configureDelivery args).Keeps (serve me) Quiet closingPart :=
        configureDelivery_keeps (fun _ => .inl) (fun _ => .inr) args
      apply (quiet_installed hconfigure hc c).mono
      intro _ c' t' ⟨hview', hc'⟩ _
      have hplace : c'.attachment.place = a.place := by
        rw [← show c.attachment = a from hview]
        exact congrArg Prod.snd hview'
      obtain ⟨hifname, hpref⟩ := Prod.mk.inj hplace
      unfold Installed
      rw [hifname, hpref]
      exact hc'

/-- A constructor that attaches returns with the filter installed. -/
theorem create_installs {S : Type} {args : CollectorArgs} (hattach : args.attach = true)
    (self : S) :
    (create args).Ensures (serve me) (ownFilter me)
      (fun r _ t => ∀ c, r = .ok c → Installed me c.attachment t) self m := by
  have hcalls : ∀ op t, (ownFilter me).calls op t := fun _ _ => trivial
  apply ensures_bind
  apply (ensures_anything hcalls (chooseInterface args) self m).mono
  intro r self t _
  cases r with
  | error e => exact fun c h => by cases h
  | ok ifname =>
    apply ensures_bind
    apply ensures_callOn
    apply (setUp_installs hattach (blank args ifname)).mono
    intro r c t hc
    dsimp only
    split
    · intro u hu c' hc'
      cases hc'
      exact hu _ _ (hc rfl)
    · exact ensures_raise fun _ _ c h => by cases h
    · apply ensures_bind
      apply (ensures_anything hcalls _ _ _).mono
      intro r self t _
      cases r with
      | error e => exact fun c h => by cases h
      | ok p =>
        apply ensures_bind
        apply (ensures_anything hcalls _ _ _).mono
        intro r self t _
        cases r with
        | error e => exact fun c h => by cases h
        | ok _ => exact ensures_raise fun _ _ c h => by cases h

/-! ### The calls of the other collectors -/

/-- A deletion of the filters at a place. -/
def DeletesAt (place : Str × ℤ) (op : SystemCall) : Prop :=
  ∃ viaSudo, op = .run (.tcFilterDel place.1 place.2) viaSudo

theorem detach_calls {calls : SystemCall → Prop} (a : TcBpfAttachment)
    (h : ∀ op, DeletesAt a.place op → calls op) :
    (TcBpfAttachment.detach true).Ensures (serve me) (.anywhere calls)
      (fun _ _ _ => True) a m := by
  apply ensures_bind
  apply ensures_self
  intro t _
  apply ensures_bind
  apply runCommand_ensures
  intro t _
  refine ⟨h _ ⟨true, rfl⟩, fun r _ t _ => ⟨fun _ _ => trivial, fun out _ _ => ?_⟩⟩
  dsimp only
  split
  · exact ensures_update fun _ _ => trivial
  · exact fun _ _ => trivial

/-- Closing only touches the filters when the collector detaches, and deletes them at its
own place. -/
theorem close_calls (c : EbpfCollector) :
    close.Ensures (serve me) (.anywhere fun op => op.kind = .filters →
        c.detachOnClose = true ∧ DeletesAt c.attachment.place op)
      (fun _ _ _ => True) c m := by
  apply ensures_bind
  apply ensures_self
  intro t _
  dsimp only
  split
  next hdetach =>
    have hreceive : detachReceive.Keeps (serve me) (fun op => op.kind = .filters →
        c.detachOnClose = true ∧ DeletesAt c.attachment.place op) closingPart :=
      detachReceive_keeps fun op hop hfilters => by rw [hop] at hfilters; cases hfilters
    apply ensures_bind
    apply (hreceive c t).mono
    intro r c' t' hc'
    cases r with
    | error e => trivial
    | ok _ =>
      have hplace : c'.attachment.place = c.attachment.place := congrArg Prod.snd hc'
      apply ensures_within
      apply detach_calls
      rw [hplace]
      exact fun op hop _ => ⟨hdetach, hop⟩
  next => exact fun _ _ => trivial

end EbpfCollector

end Ensures

/-! ### Collectors on one machine -/

open EbpfCollector (Installed ownFilter)

/-- Where a collector is in its life, with what is left of its constructor or `close`. -/
inductive Life where
  | absent
  | constructing (rest : Script SystemCall Value PyExc (Except PyExc EbpfCollector × Unit))
  | live (c : EbpfCollector)
  | closing (rest : Script SystemCall Value PyExc (Except PyExc Unit × EbpfCollector))
  | gone

namespace Life

def ofConstruction : Script SystemCall Value PyExc (Except PyExc EbpfCollector × Unit) → Life
  | .done (.ok c, _) => live c
  | .done (.error _, _) => gone
  | rest => constructing rest

def ofClosing : Script SystemCall Value PyExc (Except PyExc Unit × EbpfCollector) → Life
  | .done _ => gone
  | rest => closing rest

def isClosing : Life → Bool
  | closing _ => true
  | _ => false

/-- What a collector needs to stay of its filters: all of them while it is constructed,
the one of its attachment afterwards. -/
def Undisturbed (i : ℕ) (m m' : Machine) : Life → Prop
  | constructing _ => (ownFilter i).rely m m'
  | live c => Installed i c.attachment m → Installed i c.attachment m'
  | _ => True

theorem undisturbed_of_rely {i : ℕ} {m m' : Machine} (h : (ownFilter i).rely m m')
    (life : Life) : life.Undisturbed i m m' := by
  cases life with
  | constructing rest => exact h
  | live c => exact h _ _
  | _ => trivial

end Life

/-- Construction and closing begin; in between, calls of the collectors are answered one
at a time, in any order. -/
inductive LifeEvent where
  | construct (i : ℕ)
  | answer (i : ℕ) (reply : Reply)
  | close (i : ℕ)

structure Deployment where
  machine : Machine := {}
  life : ℕ → Life := fun _ => .absent

namespace Deployment

def setLife (d : Deployment) (i : ℕ) (life : Life) : Deployment :=
  { d with life := Function.update d.life i life }

/-- One event; an event that does not fit the collector's life does nothing. -/
def step (args : ℕ → CollectorArgs) (d : Deployment) : LifeEvent → Deployment
  | .construct i =>
    match d.life i with
    | .absent => d.setLife i (.ofConstruction (EbpfCollector.create (args i) ()))
    | _ => d
  | .answer i reply =>
    match d.life i with
    | .constructing rest =>
      let (rest, machine) := Script.advance (serve i) (rest, d.machine) reply
      { d.setLife i (.ofConstruction rest) with machine := machine }
    | .closing rest =>
      let (rest, machine) := Script.advance (serve i) (rest, d.machine) reply
      { d.setLife i (.ofClosing rest) with machine := machine }
    | _ => d
  | .close i =>
    match d.life i with
    | .live c => d.setLife i (.ofClosing (EbpfCollector.close c))
    | _ => d

/-- Collector `owner` is live at a place, or is being constructed and has its filter there. -/
def OwnsAt (owner : ℕ) (d : Deployment) (place : Str × ℤ) : Prop :=
  match d.life owner with
  | .live c => c.attachment.place = place
  | .constructing _ => (place.1, place.2, owner) ∈ d.machine.filters
  | _ => False

instance (owner : ℕ) (d : Deployment) (place : Str × ℤ) : Decidable (OwnsAt owner d place) := by
  unfold OwnsAt
  split
  · exact inferInstanceAs (Decidable (_ = _))
  · exact inferInstanceAs (Decidable (_ ∈ _))
  · exact inferInstanceAs (Decidable False)

/-- Collector `i` did not attach, but detaches when closed, and its arguments name the
interface and the preference of collector `owner`. -/
def Trespasses (args : ℕ → CollectorArgs) (owner : ℕ) (d : Deployment) (i : ℕ) : Prop :=
  (args i).attach = false ∧ (args i).detachOnClose = true ∧ OwnsAt owner d (args i).place

instance (args : ℕ → CollectorArgs) (owner : ℕ) (d : Deployment) (i : ℕ) :
    Decidable (Trespasses args owner d i) :=
  inferInstanceAs (Decidable (_ ∧ _ ∧ _))

/-- The event is not part of the closing of a trespasser. -/
def SparesOwner (args : ℕ → CollectorArgs) (owner : ℕ) (d : Deployment) : LifeEvent → Prop
  | .answer i _ => (d.life i).isClosing = true → ¬ Trespasses args owner d i
  | _ => True

instance (args : ℕ → CollectorArgs) (owner : ℕ) (d : Deployment) :
    DecidablePred (SparesOwner args owner d)
  | .answer i _ =>
    inferInstanceAs (Decidable ((d.life i).isClosing = true → ¬ Trespasses args owner d i))
  | .construct _ | .close _ => .isTrue trivial

/-- From its construction until it is closed, the collector has its filter. -/
def Owned (owner : ℕ) (d : Deployment) : Prop :=
  match d.life owner with
  | .live c => Installed owner c.attachment d.machine
  | _ => True

instance (owner : ℕ) (d : Deployment) : Decidable (Owned owner d) := by
  unfold Owned
  split
  · exact inferInstanceAs (Decidable (_ ∈ _))
  · exact inferInstanceAs (Decidable True)

/-! ### The invariant -/

/-- What is known of a collector: the owner has its filter or is on the way to it, and the
others can only still do what does not take it away, or delete at the place they were
given. -/
def LifeInv (args : CollectorArgs) (i : ℕ) (m : Machine) : Life → Prop
  | .constructing rest =>
    (args.attach = true → Script.Ensures (serve i) (ownFilter i)
      (fun p t => ∀ c, p.1 = .ok c → Installed i c.attachment t) rest m) ∧
    (args.attach = false → Script.Ensures (serve i) (.anywhere EbpfCollector.Quiet)
      (fun p _ => ∀ c, p.1 = .ok c → c.detachOnClose = args.detachOnClose ∧
        c.attachment.place = args.place) rest m)
  | .live c =>
    (args.attach = true → Installed i c.attachment m) ∧
    (args.attach = false → c.detachOnClose = args.detachOnClose ∧ c.attachment.place = args.place)
  | .closing rest =>
    args.attach = false → Script.Ensures (serve i)
      (.anywhere fun op => op.kind = .filters →
        args.detachOnClose = true ∧ EbpfCollector.DeletesAt args.place op)
      (fun _ _ => True) rest m
  | _ => True

/-- What is known of a collector outlasts whatever leaves it undisturbed. -/
theorem LifeInv.stable {args : CollectorArgs} {i : ℕ} {m m' : Machine} {life : Life}
    (h : LifeInv args i m life) (hm : args.attach = true → life.Undisturbed i m m') :
    LifeInv args i m' life := by
  cases life with
  | absent => trivial
  | gone => trivial
  | constructing rest =>
    exact ⟨fun ha => (h.1 ha).stable (hm ha), fun ha => (h.2 ha).stable trivial⟩
  | live c => exact ⟨fun ha => hm ha (h.1 ha), h.2⟩
  | closing rest => exact fun ha => (h ha).stable trivial

theorem lifeInv_ofConstruction {args : CollectorArgs} {i : ℕ} {m : Machine}
    {rest : Script SystemCall Value PyExc (Except PyExc EbpfCollector × Unit)}
    (h : LifeInv args i m (.constructing rest)) : LifeInv args i m (.ofConstruction rest) := by
  cases rest with
  | done p =>
    obtain ⟨r, _⟩ := p
    cases r with
    | error e => trivial
    | ok c =>
      exact ⟨fun ha => h.1 ha m ((ownFilter i).rely_refl m) c rfl, fun ha => h.2 ha m trivial c rfl⟩
  | call op next => exact h
  | unrolled => exact h

theorem lifeInv_ofClosing {args : CollectorArgs} {i : ℕ} {m : Machine}
    {rest : Script SystemCall Value PyExc (Except PyExc Unit × EbpfCollector)}
    (h : LifeInv args i m (.closing rest)) : LifeInv args i m (.ofClosing rest) := by
  cases rest with
  | done p => trivial
  | call op next => exact h
  | unrolled => exact h

variable {args : ℕ → CollectorArgs} {owner : ℕ}

def Inv (args : ℕ → CollectorArgs) (d : Deployment) : Prop :=
  ∀ i, LifeInv (args i) i d.machine (d.life i)

/-- When one life changes, and the machine without disturbing the others that attach, it is
enough to look at that life. -/
theorem inv_setLife {d : Deployment} (hd : Inv args d) {i : ℕ} {life : Life} {m : Machine}
    (hlife : LifeInv (args i) i m life)
    (hm : ∀ j, j ≠ i → (args j).attach = true → (d.life j).Undisturbed j d.machine m) :
    Inv args { d.setLife i life with machine := m } := by
  intro j
  by_cases hj : j = i
  · subst hj
    show LifeInv (args j) j m (Function.update d.life j life j)
    rw [Function.update_self]
    exact hlife
  · show LifeInv (args j) j m (Function.update d.life i life j)
    rw [Function.update_of_ne hj]
    exact (hd j).stable (hm j hj)

/-- A call that leaves the filters alone takes no filter away. -/
theorem rely_of_quiet {i j : ℕ} {op : SystemCall} (h : op.kind ≠ .filters) (r : Reply)
    (m : Machine) : (ownFilter j).rely m (serve i op r m).2 := by
  intro ifname pref hmem
  show _ ∈ (Machine.effect i op _ m).filters
  rw [Machine.effect_filters h]
  exact hmem

/-- Deleting at a place takes no filter away that is elsewhere. -/
theorem mem_of_del {i j : ℕ} {ifname ifname' : Str} {pref pref' : ℤ} {viaSudo : Bool}
    {r : Reply} {m : Machine} (hmem : (ifname', pref', j) ∈ m.filters)
    (hplace : (ifname', pref') ≠ (ifname, pref)) :
    (ifname', pref', j) ∈
      (serve i (.run (.tcFilterDel ifname pref) viaSudo) r m).2.filters := by
  have hkeep : (ifname', pref', j) ∈ (m.deleteFilters ifname pref).filters := by
    apply List.mem_filter.mpr
    refine ⟨hmem, ?_⟩
    by_contra hsame
    apply hplace
    simpa using hsame
  show _ ∈ (Machine.effect i (.run (.tcFilterDel ifname pref) viaSudo)
    (Machine.answer i (.run (.tcFilterDel ifname pref) viaSudo) (r _) m) m).filters
  cases hreply : r (.run (.tcFilterDel ifname pref) viaSudo) with
  | error e => exact hmem
  | ok out =>
    simp only [Machine.answer]
    split_ifs with hmissing
    · exact hmem
    · show _ ∈ (if out.returncode = 0 then m.deleteFilters ifname pref else m).filters
      split_ifs with hzero
      · exact hkeep
      · exact hmem

/-- Deleting where the owner does not have its filter leaves the owner undisturbed. -/
theorem undisturbed_of_del {d : Deployment} {i : ℕ} {place : Str × ℤ} {viaSudo : Bool}
    {r : Reply} (h : ¬ OwnsAt owner d place) :
    (d.life owner).Undisturbed owner d.machine
      (serve i (.run (.tcFilterDel place.1 place.2) viaSudo) r d.machine).2 := by
  unfold OwnsAt at h
  cases hlife : d.life owner with
  | constructing rest =>
    rw [hlife] at h
    intro ifname pref hmem
    apply mem_of_del hmem
    intro hplace
    obtain ⟨rfl, rfl⟩ := Prod.mk.inj hplace
    exact h hmem
  | live c =>
    rw [hlife] at h
    exact fun hmem => mem_of_del hmem h
  | _ => trivial

/-- Closing a collector that did not attach leaves the owner undisturbed, unless it
trespasses. -/
theorem undisturbed_of_closing {d : Deployment} {i : ℕ} {reply : Reply}
    {rest : Script SystemCall Value PyExc (Except PyExc Unit × EbpfCollector)}
    (hattach : (args i).attach = false) (hrest : LifeInv (args i) i d.machine (.closing rest))
    (hspares : ¬ Trespasses args owner d i) :
    (d.life owner).Undisturbed owner d.machine
      (Script.advance (serve i) (rest, d.machine) reply).2 := by
  cases rest with
  | done p => exact Life.undisturbed_of_rely ((ownFilter owner).rely_refl _) _
  | unrolled => exact Life.undisturbed_of_rely ((ownFilter owner).rely_refl _) _
  | call op next =>
    have hcalls := (hrest hattach d.machine trivial).1
    by_cases hop : op.kind = .filters
    · obtain ⟨hdetach, viaSudo, rfl⟩ := hcalls hop
      exact undisturbed_of_del fun howns => hspares ⟨hattach, hdetach, howns⟩
    · exact Life.undisturbed_of_rely (rely_of_quiet hop reply d.machine) _

/-! ### The steps -/

theorem inv_construct {d : Deployment} (hd : Inv args d) (i : ℕ) :
    Inv args (d.step args (.construct i)) := by
  cases hlife : d.life i with
  | absent =>
    simp only [step, hlife]
    apply inv_setLife hd
    · apply lifeInv_ofConstruction
      refine ⟨fun ha => EbpfCollector.create_installs ha (), fun ha => ?_⟩
      have hplain : ∀ op : SystemCall, op.kind = .plain → EbpfCollector.Quiet op :=
        fun _ => .inl
      have hloader : ∀ op : SystemCall, op.kind = .loader → EbpfCollector.Quiet op :=
        fun _ => .inr
      apply Script.Ensures.mono _ (EbpfCollector.create_ensures hplain hloader (args i)
        (fun h => absurd h (by rw [ha]; decide)) () d.machine)
      exact fun _ _ hp c hc => ⟨(hp.2 c hc).1, (hp.2 c hc).2 ha⟩
    · exact fun j _ _ => Life.undisturbed_of_rely ((ownFilter j).rely_refl _) _
  | _ => simpa only [step, hlife] using hd

theorem inv_close {d : Deployment} (hd : Inv args d) (i : ℕ) :
    Inv args (d.step args (.close i)) := by
  cases hlife : d.life i with
  | live c =>
    have hlive := hd i
    rw [hlife] at hlive
    simp only [step, hlife]
    apply inv_setLife hd
    · apply lifeInv_ofClosing
      intro ha
      obtain ⟨hdetach, hplace⟩ := hlive.2 ha
      rw [← hdetach, ← hplace]
      exact EbpfCollector.close_calls c
    · exact fun j _ _ => Life.undisturbed_of_rely ((ownFilter j).rely_refl _) _
  | _ => simpa only [step, hlife] using hd

/-- Of two collectors, one does not attach. -/
theorem not_attach (howner : ∀ i, (args i).attach = true → i = owner) {i j : ℕ} (hij : j ≠ i)
    (hj : (args j).attach = true) : (args i).attach = false := by
  cases hi : (args i).attach with
  | false => rfl
  | true => exact absurd ((howner j hj).trans (howner i hi).symm) hij

theorem inv_answer (howner : ∀ i, (args i).attach = true → i = owner) {d : Deployment} {i : ℕ}
    {reply : Reply} (hd : Inv args d) (hspares : SparesOwner args owner d (.answer i reply)) :
    Inv args (d.step args (.answer i reply)) := by
  have hi := hd i
  cases hlife : d.life i with
  | constructing rest =>
    rw [hlife] at hi
    simp only [step, hlife]
    apply inv_setLife hd
    · apply lifeInv_ofConstruction
      exact ⟨fun ha => (hi.1 ha).advance (Script.permits_true rest reply),
        fun ha => (hi.2 ha).advance (Script.permits_true rest reply)⟩
    · intro j hj ha
      apply Life.undisturbed_of_rely
      have hquiet := hi.2 (not_attach howner hj ha)
      cases rest with
      | done p => exact (ownFilter j).rely_refl _
      | unrolled => exact (ownFilter j).rely_refl _
      | call op next => exact rely_of_quiet (hquiet d.machine trivial).1.kind_ne reply d.machine
  | closing rest =>
    rw [hlife] at hi
    simp only [step, hlife]
    apply inv_setLife hd
    · apply lifeInv_ofClosing
      exact fun ha => (hi ha).advance (Script.permits_true rest reply)
    · intro j hj ha
      rw [howner j ha]
      apply undisturbed_of_closing (not_attach howner hj ha) hi
      exact hspares (by rw [hlife]; rfl)
  | _ => simpa only [step, hlife] using hd

theorem inv_step (howner : ∀ i, (args i).attach = true → i = owner) {d : Deployment}
    {e : LifeEvent} (hd : Inv args d) (hspares : SparesOwner args owner d e) :
    Inv args (d.step args e) := by
  cases e with
  | construct i => exact inv_construct hd i
  | close i => exact inv_close hd i
  | answer i reply => exact inv_answer howner hd hspares

/-! ### The trespasser -/

/-- A deletion at a place that works leaves no filter there. -/
theorem not_mem_of_del {i j : ℕ} {ifname : Str} {pref : ℤ} {viaSudo : Bool} {r : Reply}
    {m : Machine} {out : CompletedProcess}
    (hout : r (.run (.tcFilterDel ifname pref) viaSudo) = .ok out) (hworks : out.returncode = 0) :
    (ifname, pref, j) ∉ (serve i (.run (.tcFilterDel ifname pref) viaSudo) r m).2.filters := by
  show _ ∉ (Machine.effect i (.run (.tcFilterDel ifname pref) viaSudo)
    (Machine.answer i (.run (.tcFilterDel ifname pref) viaSudo) (r _) m) m).filters
  rw [hout]
  simp only [Machine.answer]
  split_ifs with hmissing
  · intro hmem
    have hat : (ifname, pref, j) ∈ m.filtersAt ifname pref :=
      List.mem_filter.mpr ⟨hmem, by simp⟩
    rw [hmissing.1] at hat
    cases hat
  · show _ ∉ (if out.returncode = 0 then m.deleteFilters ifname pref else m).filters
    rw [if_pos hworks]
    intro hmem
    simpa using (List.mem_filter.mp hmem).2

/-- The closing of a trespasser does take the live owner's filter away, once its command
works. -/
theorem not_owned_of_trespasses {d : Deployment} (hd : Inv args d) {i : ℕ} {c : EbpfCollector}
    (howner : d.life owner = .live c) (htrespasses : Trespasses args owner d i) {op : SystemCall}
    {next : Answer op → Script SystemCall Value PyExc (Except PyExc Unit × EbpfCollector)}
    (hlife : d.life i = .closing (.call op next)) (hop : op.kind = .filters) {reply : Reply}
    (hreply : ∀ command viaSudo, ∃ out : CompletedProcess,
      reply (.run command viaSudo) = .ok out ∧ out.returncode = 0) :
    ¬ Owned owner (d.step args (.answer i reply)) := by
  obtain ⟨hattach, -, howns⟩ := htrespasses
  have hplace : c.attachment.place = (args i).place := by
    unfold OwnsAt at howns
    rwa [howner] at howns
  have hi := hd i
  rw [hlife] at hi
  obtain ⟨-, viaSudo, rfl⟩ := (hi hattach d.machine trivial).1 hop
  obtain ⟨out, hout, hworks⟩ := hreply (.tcFilterDel (args i).place.1 (args i).place.2) viaSudo
  have hne : owner ≠ i := by
    rintro rfl
    rw [hlife] at howner
    cases howner
  have hgone := @not_mem_of_del i owner _ _ viaSudo reply d.machine out hout hworks
  rw [← hplace] at hgone
  simp only [step, hlife]
  unfold Owned
  show ¬ (match Function.update d.life i _ owner with
    | .live c => Installed owner c.attachment _
    | _ => True)
  rw [Function.update_of_ne hne, howner]
  rw [← hplace]
  exact hgone

end Deployment

open Deployment in
/-- The filter of the one collector that attaches stays from its construction until it is
closed, in every run in which no trespasser is closed. -/
theorem attached_filter_stays (args : ℕ → CollectorArgs) (owner : ℕ)
    (howner : ∀ i, (args i).attach = true → i = owner) (hattach : (args owner).attach = true)
    (d : Deployment) (hfresh : ∀ i, d.life i = .absent) (events : List LifeEvent)
    (hevents : Along (step args) (SparesOwner args owner) d events) :
    Owned owner (events.foldl (step args) d) := by
  have hstart : Inv args d := by
    intro i
    rw [hfresh i]
    trivial
  have hinv : Inv args (events.foldl (step args) d) :=
    Along.invariant (fun _ _ => inv_step howner) hstart hevents
  have howned := hinv owner
  unfold Owned
  cases hlife : (events.foldl (step args) d).life owner with
  | live c =>
    rw [hlife] at howned
    exact howned.1 hattach
  | _ => trivial

/-! Collector 0 attaches, collector 1 reads the same map with `--no-attach`. -/

/-- Every call does what it should; the counter map is map 7 of program 5. -/
def Reply.works : Reply
  | .pathExists _ => .ok true
  | .run .bpftoolProgShow _ =>
    .ok { stdout := { json := .ok (.arr [.obj [("name".toList, .str "udp_ingress".toList),
      ("id".toList, .int 5), ("map_ids".toList, .arr [.int 7])]]) } }
  | .run .bpftoolMapShow _ =>
    .ok { stdout := { json := .ok (.arr [.obj [("id".toList, .int 7),
      ("name".toList, .str "udp_ingress_cou".toList)]]) } }
  | .run _ _ => .ok {}
  | .environGet _ => .ok none
  | .popen _ => .ok ()
  | .select _ => .ok true
  | .readline =>
    .ok ⟨"ready".toList, .ok (.obj [("backend".toList, .str "fentry".toList),
      ("map_id".toList, .int 8)])⟩
  | .communicate _ => .ok {}
  | .poll => .ok none
  | .wait | .geteuid | .monotonic => .ok (0 : ℤ)
  | .kernelHasNonblock => .ok (some false)
  | .readStderr => .ok ([] : Str)
  | .readCheckpoint => .ok (Samples.udp [])
  | .openStderr | .closeStderr | .loadCatalog | .terminate | .kill | .createWriter
  | .installHandler _ | .enterTry
  | .emitSamples _ | .writeSamples _ | .sleep | .exceptClause | .flush | .closeWriter => .ok ()

/-- An attaching collector and a reader on the same interface. -/
def readerBeside (detachOnClose : Bool) (i : ℕ) : CollectorArgs :=
  if i = 0 then { ifname := some "eth0".toList }
  else { ifname := some "eth0".toList, attach := false, detachOnClose }

/-- The reader comes and goes. -/
def readerVisit : List LifeEvent :=
  .construct 0 :: List.replicate 6 (.answer 0 .works) ++
    .construct 1 :: List.replicate 2 (.answer 1 .works) ++ [.close 1, .answer 1 .works]

theorem reader_evicts_filter :
    ¬ Deployment.Owned 0 (readerVisit.foldl (Deployment.step (readerBeside true)) {}) := by
  decide +kernel

theorem attached_filter_stays_reader :
    Deployment.Owned 0 (readerVisit.foldl (Deployment.step (readerBeside false)) {}) := by
  apply attached_filter_stays (readerBeside false) 0
  · intro i hi
    by_contra hne
    simp [readerBeside, hne] at hi
  · rfl
  · exact fun _ => rfl
  · decide +kernel

end UdpAnalyzer
