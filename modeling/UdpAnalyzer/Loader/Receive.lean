import UdpAnalyzer.Loader.Calls

/-! The receive loader (`udp_receive_loader.c`): it loads one of the two programs of the
object file, attaches it, reports the map and waits for a signal. -/

namespace UdpAnalyzer.Loader

open Method (attempt raise update)

/-- `struct loaded_state`. -/
structure ReceiveState where
  object : Option ℕ := none
  link : Option ℕ := none
  mapId : UInt32 := 0
  deriving DecidableEq, Repr

namespace ReceiveLoader

def fentry : Str := "fentry".toList

def kprobe : Str := "kprobe".toList

def auto : Str := "auto".toList

def fentryProgram : Str := "udp_recv_fentry".toList

def kprobeProgram : Str := "udp_recv_kprobe".toList

def deliveredMap : Str := "udp_delivered_counters".toList

def receiveFunction : Str := "udp_queue_rcv_skb".toList

/-- The program of a backend. -/
def selectedName (backend : Str) : Str := if backend = fentry then fentryProgram else kprobeProgram

def destroyState : Meth ReceiveState Unit := do
  let state ← Method.self
  ifSome state.link Libbpf.destroyLink
  ifSome state.object Libbpf.closeObject
  update fun _ => {}

/-- A message, `destroy_state` and the error. -/
def giveUp {α : Type} (message : Str) (shown : Option Errno) (error : Errno) :
    Meth ReceiveState α := do
  Libbpf.complain message shown
  destroyState
  raise error

/-- The loop of `load_backend` over the programs: only the one with the name is to be
loaded. -/
def selectProgram (name : Str) : List BpfProgram → Option BpfProgram →
    Meth ReceiveState (Option BpfProgram)
  | [], selected => pure selected
  | program :: rest, selected => do
    let enabled := decide (program.name = name)
    Libbpf.setAutoload program enabled
    selectProgram name rest (if enabled then some program else selected)

/-- `load_backend` from the search for the map on. -/
def readMapId (object : ℕ) : Meth ReceiveState Unit := do
  match ← Libbpf.findMapByName object deliveredMap with
  | none => giveUp ("map ".toList ++ deliveredMap ++ " not found".toList) none .enoent
  | some map =>
    match ← attempt (Libbpf.mapInfo map) with
    | .error error => giveUp "map info failed: ".toList (some error) error
    | .ok id => update fun state => { state with mapId := id }

/-- The way a backend attaches its program. -/
def attachSelected (backend : Str) (selected : BpfProgram) : Meth ReceiveState ℕ :=
  if backend = fentry then Libbpf.attachTrace selected
  else Libbpf.attachKprobe selected false receiveFunction

/-- `load_backend` from the loading of the object on. -/
def loadSelected (backend : Str) (object : ℕ) (selected : BpfProgram) : Meth ReceiveState Unit := do
  match ← attempt (Libbpf.load object) with
  | .error error => giveUp (backend ++ " load failed: ".toList) (some error) error
  | .ok _ =>
    match ← attempt (attachSelected backend selected) with
    | .error error => giveUp (backend ++ " attach failed: ".toList) (some error) error
    | .ok link => do
      update fun state => { state with link := some link }
      readMapId object

def loadBackend (objectPath backend : Str) : Meth ReceiveState Unit := do
  match ← attempt (Libbpf.openFile objectPath) with
  | .error error => do
    Libbpf.complain (backend ++ " open failed: ".toList) (some error)
    raise error
  | .ok object => do
    update fun state => { state with object := some object }
    let programs ← Libbpf.programs object
    match ← selectProgram (selectedName backend) programs none with
    | none =>
      giveUp (backend ++ " program ".toList ++ selectedName backend ++ " not found".toList) none
        .enoent
    | some selected => loadSelected backend object selected

def validMode (mode : Str) : Bool := mode = auto || mode = fentry || mode = kprobe

/-- One backend: its name when it is loaded, or the error. -/
def tryBackend (objectPath backend : Str) : Meth ReceiveState (Except Errno Str) :=
  attempt do
    loadBackend objectPath backend
    pure backend

def reportFallback (mode : Str) : Meth ReceiveState Unit :=
  if mode = auto then Libbpf.complain "fentry unavailable; trying kprobe fallback".toList none
  else pure ()

def tryFentry (objectPath mode : Str) : Meth ReceiveState (Except Errno Str) :=
  if mode = kprobe then pure (.error .einval) else tryBackend objectPath fentry

/-- What follows when there is no fentry. -/
def fallBack (objectPath mode : Str) (error : Errno) : Meth ReceiveState (Except Errno Str) :=
  if mode = fentry then pure (.error error)
  else do
    reportFallback mode
    tryBackend objectPath kprobe

def chooseBackend (objectPath mode : Str) : Meth ReceiveState (Except Errno Str) := do
  match ← tryFentry objectPath mode with
  | .ok backend => pure (.ok backend)
  | .error error => fallBack objectPath mode error

/-- The line on standard output. -/
def statusLine (backend : Str) (mapId : UInt32) : Str :=
  "\x7b\"backend\":\"".toList ++ backend ++ "\",\"map_id\":".toList ++ decimal mapId.toNat ++
    "\x7d\n".toList

/-- `main` once a backend is there. -/
def serveBackend (backend : Str) (rounds : ℕ) : Meth ReceiveState ℤ := do
  Libbpf.installHandlers
  let state ← Method.self
  Libbpf.print (statusLine backend state.mapId)
  awaitSignal rounds
  destroyState
  pure 0

/-- `main`, for so many rounds of its wait. -/
def main (argv : List Str) (rounds : ℕ) : Meth ReceiveState ℤ :=
  match argv with
  | [_, objectPath, mode] =>
    if validMode mode then do
      match ← chooseBackend objectPath mode with
      -- an error number is never zero
      | .error _ => do
        Libbpf.complain ("receive-side attach failed for mode ".toList ++ mode) none
        pure 1
      | .ok backend => serveBackend backend rounds
    else do
      Libbpf.complain ("invalid receive hook mode: ".toList ++ mode) none
      pure 2
  | _ => do
    Libbpf.complain
      ("usage: ".toList ++ argv.headD [] ++ " OBJECT \x7bauto|fentry|kprobe\x7d".toList) none
    pure 2

/-! ### What is attached -/

/-- How the program of a backend is attached. -/
def hookOf (backend : Str) : Hook :=
  if backend = fentry then .trace else .kprobe false receiveFunction

/-- Of the programs of an object only the backend's is loaded, the link attaches it the
backend's way, and the id is that of the object's map. -/
structure IsAttached (backend : Str) (mapId : UInt32) (object : ℕ) (obj : BpfObject)
    (link : BpfLink) : Prop where
  loaded : obj.loaded = true
  only : ∀ p ∈ obj.programs, p.2 = true ↔ p.1 = selectedName backend
  program : link.program.object = object ∧ link.program.name = selectedName backend
  hook : link.hook = hookOf backend
  map : (deliveredMap, some mapId) ∈ obj.maps
  positive : 0 < mapId

/-- All that is there is one object with one link. -/
def Serving (backend : Str) (mapId : UInt32) (s : Session) : Prop :=
  ∃ object obj l link, s.objects = [(object, obj)] ∧ s.links = [(l, link)] ∧
    IsAttached backend mapId object obj link

/-- A mode allows a backend. -/
def Allows (mode backend : Str) : Prop :=
  (backend = fentry ∧ mode ≠ kprobe) ∨ (backend = kprobe ∧ mode ≠ fentry)

/-- The states a loader in this mode waits in. -/
def Waiting (mode : Str) (s : Session) : Prop :=
  ∃ backend mapId, Allows mode backend ∧ Serving backend mapId s ∧
    s.stdout = statusLine backend mapId

section Ensures

open Method

variable {W : Session → Prop} {text : Str} {s : Session} {state : ReceiveState}
  {object : ℕ} {obj : BpfObject} {objects : Option (ℕ × BpfObject)} {links : List (ℕ × BpfLink)}

/-- `struct loaded_state` has what is there. -/
structure Owns (state : ReceiveState) (objects : Option (ℕ × BpfObject))
    (links : List (ℕ × BpfLink)) : Prop where
  object : state.object = objects.map Prod.fst
  link : state.link.toList = links.map Prod.fst

theorem destroyState_ensures {post : Except Errno Unit → ReceiveState → Session → Prop}
    (hstate : Owns state objects links) (hs : Holds objects links text s)
    (hok : ∀ t, Idle text t → post (.ok ()) {} t) :
    destroyState.Ensures serve (terms W) post state s := by
  apply ensures_bind
  apply careful_self
  apply ensures_bind
  have hclose : ∀ t, Holds objects [] text t → ((do
      ifSome state.object Libbpf.closeObject
      update fun _ => {}) : Meth ReceiveState Unit).Ensures serve (terms W) post state t := by
    intro t ht
    apply ensures_bind
    exact ensures_ifSome_closeObject hstate.object ht fun u hu => careful_update (hok u hu)
  have hlinks := hstate.link
  cases hlink : state.link with
  | none =>
    rw [hlink] at hlinks
    have hnone : links = [] := List.map_eq_nil_iff.mp hlinks.symm
    subst hnone
    exact careful_pure (hclose s hs)
  | some l =>
    rw [hlink] at hlinks
    obtain ⟨link, hone, hnumber⟩ := List.map_eq_singleton_iff.mp hlinks.symm
    subst hone hnumber
    exact ensures_destroyLink [] hs hclose

theorem giveUp_ensures {α : Type} {message : Str} {shown : Option Errno} {error : Errno}
    {post : Except Errno α → ReceiveState → Session → Prop}
    (hstate : Owns state objects links) (hs : Holds objects links text s)
    (herror : ∀ t, Idle text t → post (.error error) {} t) :
    (giveUp message shown error : Meth ReceiveState α).Ensures serve (terms W) post state s := by
  apply ensures_bind
  apply ensures_complain
  apply ensures_bind
  exact destroyState_ensures hstate hs fun t ht => careful_raise (herror t ht)

/-! ### Loading a backend -/

/-- The programs of an object, those with the name marked. -/
def marked (name : Str) (names : List Str) : List (Str × Bool) :=
  names.map fun n => (n, decide (n = name))

/-- A program of the object that has the name. -/
structure IsSelected (name : Str) (names : List Str) (object : ℕ) (program : BpfProgram) :
    Prop where
  inside : program.object = object
  named : program.name = name
  listed : names[program.index]? = some name

theorem modify_length {α : Type} (f : α → α) (front : List α) (a : α) (rest : List α) :
    (front ++ a :: rest).modify front.length f = front ++ f a :: rest :=
  List.modifyTailIdx_add (·.modifyHead f) 0 front (a :: rest)

/-- The loop marks the programs it has seen. -/
theorem selectProgram_ensures {name : Str} {maps : List (Str × Option UInt32)}
    {post : Except Errno (Option BpfProgram) → ReceiveState → Session → Prop} (rest : List Str) :
    ∀ (front : List Str) (selected : Option BpfProgram) (s : Session),
      Holds (some (object, ⟨marked name front ++ rest.map fun n => (n, true), maps, false⟩)) links
        text s →
      (∀ p ∈ selected, IsSelected name (front ++ rest) object p) →
      (∀ selected t,
        Holds (some (object, ⟨marked name (front ++ rest), maps, false⟩)) links text t →
        (∀ p ∈ selected, IsSelected name (front ++ rest) object p) →
        post (.ok selected) state t) →
      (selectProgram name (programsFrom (fun n => n) object front.length rest) selected).Ensures
        serve (terms W) post state s := by
  induction rest with
  | nil =>
    intro front selected s hs hselected hok
    rw [List.map_nil, List.append_nil] at hs
    rw [List.append_nil] at hselected hok
    exact careful_pure (hok selected s hs hselected)
  | cons n rest ih =>
    intro front selected s hs hselected hok
    have hlength : (marked name front).length = front.length := List.length_map _
    have hfront : marked name front ++ [(n, decide (n = name))] = marked name (front ++ [n]) := by
      rw [marked, marked, List.map_append]
      rfl
    have hall : front ++ n :: rest = front ++ [n] ++ rest := by
      rw [List.append_assoc, List.singleton_append]
    rw [programsFrom_cons]
    apply ensures_bind
    apply ensures_setAutoload (decide (n = name)) hs rfl
    intro t ht
    have ht' : Holds (some (object, ⟨marked name (front ++ [n]) ++ rest.map fun n => (n, true), maps,
        false⟩)) links text t := by
      have hmodify := modify_length (fun p : Str × Bool => (p.1, decide (n = name)))
        (marked name front) (n, true) (rest.map fun n => (n, true))
      rw [hlength] at hmodify
      rw [← hfront, List.append_assoc, List.singleton_append, ← hmodify]
      exact ht
    refine ih (front ++ [n]) _ t ht' ?_ ?_
    · intro p hp
      rw [← hall]
      by_cases hn : n = name
      · rw [if_pos (decide_eq_true hn)] at hp
        cases hp
        refine ⟨rfl, hn, ?_⟩
        rw [List.getElem?_append_right (Nat.le_refl _), Nat.sub_self, hn]
        rfl
      · rw [if_neg (by simpa using hn)] at hp
        exact hselected p hp
    · rw [← hall]
      exact hok

theorem only_marked {name : Str} {names : List Str} :
    ∀ p ∈ marked name names, p.2 = true ↔ p.1 = name := by
  intro p hp
  obtain ⟨n, _, rfl⟩ := List.mem_map.mp hp
  exact decide_eq_true_iff

theorem IsSelected.marked {name : Str} {names : List Str} {program : BpfProgram}
    (h : IsSelected name names object program) :
    (marked name names)[program.index]? = some (program.name, true) := by
  rw [ReceiveLoader.marked, List.getElem?_map, h.listed, h.named]
  exact congrArg (fun b => some (name, b)) (decide_eq_true rfl)

theorem readMapId_ensures {post : Except Errno Unit → ReceiveState → Session → Prop}
    {maps : List (Str × Option UInt32)} {ids : ℕ → UInt32} {link : ℕ × BpfLink}
    (hmaps : obj.maps = maps.mapIdx fun i m => (m.1, some (ids i)))
    (hstate : Owns state (some (object, obj)) [link])
    (hs : Holds (some (object, obj)) [link] text s)
    (herror : ∀ e t, Idle text t → post (.error e) {} t)
    (hok : ∀ i, (deliveredMap, some (ids i)) ∈ obj.maps →
      post (.ok ()) { state with mapId := ids i } s) :
    (readMapId object).Ensures serve (terms W) post state s := by
  apply ensures_bind
  apply ensures_findMapByName deliveredMap hs
  · exact giveUp_ensures hstate hs (herror _)
  · intro index id hfound
    obtain ⟨rfl, hmapId⟩ := mapId_of_loaded hmaps hfound
    apply ensures_bind
    apply ensures_attempt
    apply ensures_mapInfo hs hmapId
    · exact fun e => giveUp_ensures hstate hs (herror e)
    · exact careful_update (hok index (List.mem_of_getElem? hfound))

theorem attachSelected_ensures {backend : Str} {program : BpfProgram}
    {post : Except Errno ℕ → ReceiveState → Session → Prop}
    (hs : Holds (some (program.object, obj)) [] text s) (hloaded : obj.loaded = true)
    (hprogram : obj.programs[program.index]? = some (program.name, true))
    (herror : ∀ e, post (.error e) state s)
    (hok : ∀ l t, Holds (some (program.object, obj)) [(l, ⟨program, hookOf backend⟩)] text t →
      post (.ok l) state t) :
    (attachSelected backend program).Ensures serve (terms W) post state s := by
  unfold attachSelected
  unfold hookOf at hok
  split
  next hbackend =>
    rw [if_pos hbackend] at hok
    exact ensures_attachTrace hs hloaded hprogram herror hok
  next hbackend =>
    rw [if_neg hbackend] at hok
    exact ensures_attachKprobe false receiveFunction hs hloaded hprogram herror hok

/-- What a backend that is loaded leaves, or that nothing is left of it. -/
structure Loads (backend text : Str) (post : Except Errno Unit → ReceiveState → Session → Prop) :
    Prop where
  error : ∀ e t, Idle text t → post (.error e) {} t
  ok : ∀ state object obj l link t, Owns state (some (object, obj)) [(l, link)] →
    Holds (some (object, obj)) [(l, link)] text t →
    IsAttached backend state.mapId object obj link → post (.ok ()) state t

theorem loadSelected_ensures {backend : Str} {file : ObjectFile} {program : BpfProgram}
    {post : Except Errno Unit → ReceiveState → Session → Prop}
    (hprogram : IsSelected (selectedName backend) file.programs object program)
    (hstate : state.object = some object ∧ state.link = none)
    (hs : Holds (some (object, ⟨marked (selectedName backend) file.programs,
      (BpfObject.ofFile file).maps, false⟩)) [] text s) (hpost : Loads backend text post) :
    (loadSelected backend object program).Ensures serve (terms W) post state s := by
  have howns : ∀ obj, Owns state (some (object, obj)) [] := fun obj =>
    ⟨hstate.1, by rw [hstate.2]; rfl⟩
  apply ensures_bind
  apply ensures_attempt
  apply ensures_load hs rfl
  · exact fun e => giveUp_ensures (howns _) hs (hpost.error e)
  · intro ids hids t ht
    obtain rfl : program.object = object := hprogram.inside
    apply ensures_bind
    apply ensures_attempt
    apply attachSelected_ensures ht rfl hprogram.marked
    · exact fun e => giveUp_ensures (howns _) ht (hpost.error e)
    · intro l u hu
      apply ensures_bind
      apply careful_update
      refine readMapId_ensures rfl ⟨hstate.1, rfl⟩ hu hpost.error ?_
      intro i hmap
      refine hpost.ok _ _ _ l _ u ⟨hstate.1, rfl⟩ hu ?_
      exact ⟨rfl, only_marked, ⟨rfl, hprogram.named⟩, rfl, hmap, hids i⟩

theorem loadBackend_ensures {objectPath backend : Str}
    {post : Except Errno Unit → ReceiveState → Session → Prop} (hs : Idle text s)
    (hpost : Loads backend text post) :
    (loadBackend objectPath backend).Ensures serve (terms W) post {} s := by
  apply ensures_bind
  apply ensures_attempt
  apply ensures_openFile objectPath hs
  · intro e
    apply ensures_bind
    exact ensures_complain (careful_raise (hpost.error e s hs))
  · intro file object t ht
    have howns : ∀ obj, Owns { object := some object } (some (object, obj)) [] := fun _ => ⟨rfl, rfl⟩
    apply ensures_bind
    apply careful_update
    apply ensures_bind
    apply ensures_programs ht
    have hprograms : programsFrom Prod.fst object 0 (BpfObject.ofFile file).programs =
        programsFrom (fun n => n) object ([] : List Str).length file.programs := by
      unfold programsFrom
      rw [List.mapIdx_eq_iff]
      intro i
      rw [List.getElem?_mapIdx, BpfObject.ofFile, List.getElem?_map, Option.map_map]
      rfl
    rw [hprograms]
    apply ensures_bind
    apply selectProgram_ensures file.programs [] none t ht (fun p hp => by cases hp)
    intro selected u hu hselected
    cases selected with
    | none => exact giveUp_ensures (howns _) hu (hpost.error _)
    | some program => exact loadSelected_ensures (hselected program rfl) ⟨rfl, rfl⟩ hu hpost

/-! ### The whole program -/

/-- What is there once a backend was chosen, or that nothing is. -/
structure Chooses (mode text : Str)
    (post : Except Errno (Except Errno Str) → ReceiveState → Session → Prop) : Prop where
  error : ∀ e t, Idle text t → post (.ok (.error e)) {} t
  ok : ∀ backend state object obj l link t, Allows mode backend →
    Owns state (some (object, obj)) [(l, link)] → Holds (some (object, obj)) [(l, link)] text t →
    IsAttached backend state.mapId object obj link → post (.ok (.ok backend)) state t

theorem tryBackend_ensures {objectPath mode backend : Str}
    {post : Except Errno (Except Errno Str) → ReceiveState → Session → Prop} (hs : Idle text s)
    (hallows : Allows mode backend) (hpost : Chooses mode text post) :
    (tryBackend objectPath backend).Ensures serve (terms W) post {} s := by
  apply ensures_attempt
  apply ensures_bind
  apply loadBackend_ensures hs
  constructor
  · exact hpost.error
  · intro state object obj l link t hstate ht hattached
    exact careful_pure (hpost.ok backend state object obj l link t hallows hstate ht hattached)

theorem fallBack_ensures {objectPath mode : Str} {error : Errno}
    {post : Except Errno (Except Errno Str) → ReceiveState → Session → Prop} (hs : Idle text s)
    (hpost : Chooses mode text post) :
    (fallBack objectPath mode error).Ensures serve (terms W) post {} s := by
  unfold fallBack
  split
  · exact careful_pure (hpost.error error s hs)
  next hmode =>
    have hkprobe : (tryBackend objectPath kprobe).Ensures serve (terms W) post {} s :=
      tryBackend_ensures hs (.inr ⟨rfl, hmode⟩) hpost
    apply ensures_bind
    unfold reportFallback
    split
    · exact ensures_complain hkprobe
    · exact careful_pure hkprobe

theorem chooseBackend_ensures {objectPath mode : Str}
    {post : Except Errno (Except Errno Str) → ReceiveState → Session → Prop} (hs : Idle text s)
    (hpost : Chooses mode text post) :
    (chooseBackend objectPath mode).Ensures serve (terms W) post {} s := by
  apply ensures_bind
  unfold tryFentry
  split
  · exact careful_pure (fallBack_ensures hs hpost)
  next hmode =>
    apply tryBackend_ensures hs (.inl ⟨rfl, hmode⟩)
    constructor
    · exact fun e t ht => fallBack_ensures ht hpost
    · intro backend state object obj l link t hallows hstate ht hattached
      exact careful_pure (hpost.ok backend state object obj l link t hallows hstate ht hattached)

/-- How the program ends: with nothing left, after a status line or with an error. -/
def Ended (argv : List Str) : Except Errno ℤ → ReceiveState → Session → Prop
  | .ok status, _, s =>
    (status = 0 ∧ ∃ backend mapId, Idle (statusLine backend mapId) s) ∨
      (status = 1 ∧ Idle [] s) ∨
      (status = 2 ∧ Idle [] s ∧ ¬ ∃ name path mode, argv = [name, path, mode] ∧ validMode mode)
  | .error _, _, _ => False

theorem serveBackend_ensures {mode backend : Str} {rounds : ℕ} {l : ℕ} {link : BpfLink}
    {argv : List Str} (hallows : Allows mode backend) (hstate : Owns state (some (object, obj)) [(l, link)])
    (hs : Holds (some (object, obj)) [(l, link)] [] s)
    (hattached : IsAttached backend state.mapId object obj link) :
    (serveBackend backend rounds).Ensures serve (terms (Waiting mode)) (Ended argv) state s := by
  apply ensures_bind
  apply ensures_installHandlers hs
  intro t ht
  apply ensures_bind
  apply careful_self
  apply ensures_bind
  apply ensures_print _ ht
  intro u hu
  apply ensures_bind
  apply ensures_awaitSignal
  · exact ⟨backend, _, hallows, ⟨object, obj, l, link, hu.opened, hu.linked, hattached⟩, hu.stdout⟩
  · apply ensures_bind
    exact destroyState_ensures hstate hu fun v hv => careful_pure (.inl ⟨rfl, backend, _, hv⟩)

theorem main_ensures {argv : List Str} {rounds : ℕ} (hs : Idle [] s) :
    (main argv rounds).Ensures serve (terms (Waiting (argv.getLastD []))) (Ended argv) {} s := by
  unfold main
  split
  next name objectPath mode =>
    show Method.Ensures _ (terms (Waiting mode)) _ _ _ s
    split
    · apply ensures_bind
      apply chooseBackend_ensures hs
      constructor
      · intro e t ht
        apply ensures_bind
        exact ensures_complain (careful_pure (.inr (.inl ⟨rfl, ht⟩)))
      · intro backend state object obj l link t hallows hstate ht hattached
        exact serveBackend_ensures hallows hstate ht hattached
    next hmode =>
      apply ensures_bind
      apply ensures_complain
      refine careful_pure (.inr (.inr ⟨rfl, hs, ?_⟩))
      rintro ⟨_, _, mode', hargv, hvalid⟩
      obtain rfl : mode = mode' := by
        simp only [List.cons.injEq, and_true] at hargv
        exact hargv.2.2
      exact hmode hvalid
  next hargv =>
    apply ensures_bind
    apply ensures_complain
    refine careful_pure (.inr (.inr ⟨rfl, hs, ?_⟩))
    rintro ⟨name, path, mode, heq, _⟩
    exact hargv name path mode heq

end Ensures

end ReceiveLoader

end UdpAnalyzer.Loader
