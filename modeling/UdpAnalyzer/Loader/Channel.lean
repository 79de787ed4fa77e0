import UdpAnalyzer.Lifecycle.ChannelAttachment
import UdpAnalyzer.Loader.Calls

/-! The channel loaders (`tcp_channel_loader.c`, `udp_channel_loader.c`), which differ in
the name of the map: they attach every program of the object file, report the map and
wait for a signal. -/

namespace UdpAnalyzer.Loader

open Method (attempt raise update)

/-- `struct loaded_state`; the number of links is the length of the array. -/
structure ChannelState where
  object : Option ℕ := none
  links : List ℕ := []
  mapId : UInt32 := 0
  deriving DecidableEq, Repr

namespace ChannelLoader

/-- `TCP_CHANNEL_MAP`, `UDP_CHANNEL_MAP`. -/
def flowsMap : ChannelProto → Str
  | .tcp => "tcp_channel_flows".toList
  | .udp => "udp_channel_flows".toList

def destroyLinks : List ℕ → Meth ChannelState Unit
  | [] => pure ()
  | link :: rest => do
    Libbpf.destroyLink link
    destroyLinks rest

def destroyState : Meth ChannelState Unit := do
  let state ← Method.self
  destroyLinks state.links
  ifSome state.object Libbpf.closeObject
  update fun _ => {}

/-- A message, `destroy_state` and the error. -/
def giveUp {α : Type} (message : Str) (shown : Option Errno) (error : Errno) :
    Meth ChannelState α := do
  Libbpf.complain message shown
  destroyState
  raise error

def appendLink (link : ℕ) : Meth ChannelState Unit := do
  Libbpf.realloc
  update fun state => { state with links := state.links ++ [link] }

/-- The loop over the programs. -/
def attachPrograms : List BpfProgram → Meth ChannelState Unit
  | [] => pure ()
  | program :: rest => do
    match ← attempt (Libbpf.attachTrace program) with
    | .error error =>
      giveUp ("attach ".toList ++ program.name ++ " failed: ".toList) (some error) error
    | .ok link =>
      match ← attempt (appendLink link) with
      -- the link is in no array yet
      | .error error => do
        Libbpf.destroyLink link
        destroyState
        raise error
      | .ok _ => attachPrograms rest

/-- The search for the map. -/
def readMapId (proto : ChannelProto) (object : ℕ) : Meth ChannelState Unit := do
  match ← Libbpf.findMapByName object (flowsMap proto) with
  | none => giveUp ("map ".toList ++ flowsMap proto ++ " not found".toList) none .enoent
  | some map =>
    match ← attempt (Libbpf.mapInfo map) with
    | .error error => giveUp "map info failed: ".toList (some error) error
    | .ok id => update fun state => { state with mapId := id }

/-- `load_tcp_channel`, `load_udp_channel`. -/
def loadChannel (proto : ChannelProto) (objectPath : Str) : Meth ChannelState Unit := do
  match ← attempt (Libbpf.openFile objectPath) with
  | .error error => do
    Libbpf.complain "open failed: ".toList (some error)
    raise error
  | .ok object => do
    update fun state => { state with object := some object }
    match ← attempt (Libbpf.load object) with
    | .error error => giveUp "load failed: ".toList (some error) error
    | .ok _ => do
      let programs ← Libbpf.programs object
      attachPrograms programs
      readMapId proto object

/-- The line on standard output. -/
def statusLine (mapId : UInt32) : Str :=
  "\x7b\"map_id\":".toList ++ decimal mapId.toNat ++ "\x7d\n".toList

/-- `main`, for so many rounds of its wait. -/
def main (proto : ChannelProto) (argv : List Str) (rounds : ℕ) : Meth ChannelState ℤ :=
  match argv with
  | [_, objectPath] => do
    match ← attempt (loadChannel proto objectPath) with
    | .error _ => pure 1
    | .ok _ => do
      Libbpf.installHandlers
      let state ← Method.self
      Libbpf.print (statusLine state.mapId)
      awaitSignal rounds
      destroyState
      pure 0
  | _ => do
    Libbpf.complain ("usage: ".toList ++ argv.headD [] ++ " OBJECT".toList) none
    pure 2

/-! ### What is attached -/

/-- Every program of the object, attached to its function. -/
def traced (object : ℕ) (programs : List (Str × Bool)) : List BpfLink :=
  programs.mapIdx fun i p => ⟨⟨object, i, p.1⟩, .trace⟩

/-- Every program of the object is loaded and has its link, in order, and the id is that
of the object's map. -/
structure IsAttached (proto : ChannelProto) (mapId : UInt32) (object : ℕ) (obj : BpfObject)
    (links : List (ℕ × BpfLink)) : Prop where
  loaded : obj.loaded = true
  all : ∀ p ∈ obj.programs, p.2 = true
  links : links.map Prod.snd = traced object obj.programs
  map : (flowsMap proto, some mapId) ∈ obj.maps
  positive : 0 < mapId

/-- All that is there is one object with its links. -/
def Serving (proto : ChannelProto) (mapId : UInt32) (s : Session) : Prop :=
  ∃ object obj, s.objects = [(object, obj)] ∧ IsAttached proto mapId object obj s.links

/-- The states a loader waits in. -/
def Waiting (proto : ChannelProto) (s : Session) : Prop :=
  ∃ mapId, Serving proto mapId s ∧ s.stdout = statusLine mapId

section Ensures

open Method

variable {W : Session → Prop} {text : Str} {s : Session} {state : ChannelState}
  {object : ℕ} {obj : BpfObject} {objects : Option (ℕ × BpfObject)} {links : List (ℕ × BpfLink)}

/-- `struct loaded_state` has what is there. -/
structure Owns (state : ChannelState) (objects : Option (ℕ × BpfObject))
    (links : List (ℕ × BpfLink)) : Prop where
  object : state.object = objects.map Prod.fst
  links : state.links = links.map Prod.fst

theorem destroyLinks_ensures {post : Except Errno Unit → ChannelState → Session → Prop}
    (hs : Holds objects links text s) (hok : ∀ t, Holds objects [] text t → post (.ok ()) state t) :
    (destroyLinks (links.map Prod.fst)).Ensures serve (terms W) post state s := by
  induction links generalizing s with
  | nil => exact careful_pure (hok s hs)
  | cons link rest ih =>
    apply ensures_bind
    exact ensures_destroyLink [] hs fun t ht => ih ht

theorem destroyState_ensures {post : Except Errno Unit → ChannelState → Session → Prop}
    (hstate : Owns state objects links) (hs : Holds objects links text s)
    (hok : ∀ t, Idle text t → post (.ok ()) {} t) :
    destroyState.Ensures serve (terms W) post state s := by
  apply ensures_bind
  apply careful_self
  apply ensures_bind
  rw [hstate.links]
  apply destroyLinks_ensures hs
  intro t ht
  apply ensures_bind
  exact ensures_ifSome_closeObject hstate.object ht fun u hu => careful_update (hok u hu)

theorem giveUp_ensures {α : Type} {message : Str} {shown : Option Errno} {error : Errno}
    {post : Except Errno α → ChannelState → Session → Prop}
    (hstate : Owns state objects links) (hs : Holds objects links text s)
    (herror : ∀ t, Idle text t → post (.error error) {} t) :
    (giveUp message shown error : Meth ChannelState α).Ensures serve (terms W) post state s := by
  apply ensures_bind
  apply ensures_complain
  apply ensures_bind
  exact destroyState_ensures hstate hs fun t ht => careful_raise (herror t ht)

/-- Every program so far has its link; an attempt that fails takes them all down. -/
theorem attachPrograms_ensures {post : Except Errno Unit → ChannelState → Session → Prop}
    (hloaded : obj.loaded = true) (hall : ∀ p ∈ obj.programs, p.2 = true)
    (herror : ∀ e t, Idle text t → post (.error e) {} t) (rest : List (Str × Bool)) :
    ∀ (front : List (Str × Bool)) (links : List (ℕ × BpfLink)) (state : ChannelState) (s : Session),
      obj.programs = front ++ rest → links.map Prod.snd = traced object front →
      Owns state (some (object, obj)) links → Holds (some (object, obj)) links text s →
      (∀ links state t, links.map Prod.snd = traced object obj.programs →
        Owns state (some (object, obj)) links → Holds (some (object, obj)) links text t →
        post (.ok ()) state t) →
      (attachPrograms (programsFrom Prod.fst object front.length rest)).Ensures serve (terms W)
        post state s := by
  induction rest with
  | nil =>
    intro front links state s hprograms hlinks hstate hs hok
    rw [List.append_nil] at hprograms
    rw [← hprograms] at hlinks
    exact careful_pure (hok links state s hlinks hstate hs)
  | cons p rest ih =>
    intro front links state s hprograms hlinks hstate hs hok
    let program : BpfProgram := ⟨object, front.length, p.1⟩
    have hat : obj.programs[program.index]? = some (program.name, true) := by
      show obj.programs[front.length]? = some (p.1, true)
      have htrue : p.2 = true := hall p (hprograms ▸ List.mem_append_right _ List.mem_cons_self)
      rw [hprograms, List.getElem?_append_right (Nat.le_refl _), Nat.sub_self, ← htrue]
      rfl
    rw [programsFrom_cons]
    apply ensures_bind
    apply ensures_attempt
    apply ensures_attachTrace hs hloaded hat
    · exact fun e => giveUp_ensures hstate hs (herror e)
    intro l t ht
    apply ensures_bind
    apply ensures_attempt
    apply ensures_bind
    apply ensures_realloc
    · intro e
      apply ensures_bind
      apply ensures_destroyLink links ht
      intro u hu
      rw [List.append_nil] at hu
      apply ensures_bind
      exact destroyState_ensures hstate hu fun v hv => careful_raise (herror e v hv)
    · apply careful_update
      refine ih (front ++ [p]) _ _ t ?_ ?_ ⟨hstate.object, ?_⟩ ht hok
      · rw [hprograms, List.append_assoc, List.singleton_append]
      · rw [List.map_append, hlinks, traced, traced, List.mapIdx_concat]
        rfl
      · rw [hstate.links, List.map_append]
        rfl

theorem readMapId_ensures {proto : ChannelProto}
    {post : Except Errno Unit → ChannelState → Session → Prop}
    {maps : List (Str × Option UInt32)} {ids : ℕ → UInt32}
    (hmaps : obj.maps = maps.mapIdx fun i m => (m.1, some (ids i)))
    (hstate : Owns state (some (object, obj)) links)
    (hs : Holds (some (object, obj)) links text s)
    (herror : ∀ e t, Idle text t → post (.error e) {} t)
    (hok : ∀ i, (flowsMap proto, some (ids i)) ∈ obj.maps →
      post (.ok ()) { state with mapId := ids i } s) :
    (readMapId proto object).Ensures serve (terms W) post state s := by
  apply ensures_bind
  apply ensures_findMapByName (flowsMap proto) hs
  · exact giveUp_ensures hstate hs (herror _)
  · intro index id hfound
    obtain ⟨rfl, hmapId⟩ := mapId_of_loaded hmaps hfound
    apply ensures_bind
    apply ensures_attempt
    apply ensures_mapInfo hs hmapId
    · exact fun e => giveUp_ensures hstate hs (herror e)
    · exact careful_update (hok index (List.mem_of_getElem? hfound))

/-- What the channel leaves when it is loaded, or that nothing is left of it. -/
structure Loads (proto : ChannelProto) (text : Str)
    (post : Except Errno Unit → ChannelState → Session → Prop) : Prop where
  error : ∀ e t, Idle text t → post (.error e) {} t
  ok : ∀ state object obj links t, Owns state (some (object, obj)) links →
    Holds (some (object, obj)) links text t →
    IsAttached proto state.mapId object obj links → post (.ok ()) state t

theorem loadChannel_ensures {proto : ChannelProto} {objectPath : Str}
    {post : Except Errno Unit → ChannelState → Session → Prop} (hs : Idle text s)
    (hpost : Loads proto text post) :
    (loadChannel proto objectPath).Ensures serve (terms W) post {} s := by
  apply ensures_bind
  apply ensures_attempt
  apply ensures_openFile objectPath hs
  · intro e
    apply ensures_bind
    exact ensures_complain (careful_raise (hpost.error e s hs))
  intro file object t ht
  have howns : ∀ obj, Owns { object := some object } (some (object, obj)) [] := fun _ => ⟨rfl, rfl⟩
  apply ensures_bind
  apply careful_update
  apply ensures_bind
  apply ensures_attempt
  apply ensures_load ht rfl
  · exact fun e => giveUp_ensures (howns _) ht (hpost.error e)
  intro ids hids u hu
  have hall : ∀ p ∈ ((BpfObject.ofFile file).load ids).programs, p.2 = true := by
    intro p hp
    obtain ⟨name, _, rfl⟩ := List.mem_map.mp hp
    rfl
  apply ensures_bind
  apply ensures_programs hu
  apply ensures_bind
  refine attachPrograms_ensures rfl hall ?_ _ [] [] _ u rfl rfl (howns _) hu ?_
  · exact hpost.error
  · intro links state v hlinks hstate hv
    refine readMapId_ensures rfl hstate hv hpost.error ?_
    intro i hmap
    exact hpost.ok _ _ _ links v ⟨hstate.object, hstate.links⟩ hv ⟨rfl, hall, hlinks, hmap, hids i⟩

/-- How the program ends: with nothing left, after a status line or with an error. -/
def Ended (argv : List Str) : Except Errno ℤ → ChannelState → Session → Prop
  | .ok status, _, s =>
    (status = 0 ∧ ∃ mapId, Idle (statusLine mapId) s) ∨ (status = 1 ∧ Idle [] s) ∨
      (status = 2 ∧ Idle [] s ∧ argv.length ≠ 2)
  | .error _, _, _ => False

theorem main_ensures {proto : ChannelProto} {argv : List Str} {rounds : ℕ} (hs : Idle [] s) :
    (main proto argv rounds).Ensures serve (terms (Waiting proto)) (Ended argv) {} s := by
  unfold main
  split
  next name objectPath =>
    apply ensures_bind
    apply ensures_attempt
    apply loadChannel_ensures hs
    constructor
    · exact fun e t ht => careful_pure (.inr (.inl ⟨rfl, ht⟩))
    · intro state object obj links t hstate ht hattached
      apply ensures_bind
      apply ensures_installHandlers ht
      intro u hu
      apply ensures_bind
      apply careful_self
      apply ensures_bind
      apply ensures_print _ hu
      intro v hv
      apply ensures_bind
      apply ensures_awaitSignal
      · exact ⟨_, ⟨object, obj, hv.opened, hv.linked ▸ hattached⟩, hv.stdout⟩
      · apply ensures_bind
        exact destroyState_ensures hstate hv fun w hw => careful_pure (.inl ⟨rfl, _, hw⟩)
  next hargv =>
    apply ensures_bind
    apply ensures_complain
    refine careful_pure (.inr (.inr ⟨rfl, hs, fun hlength => ?_⟩))
    obtain ⟨name, path, heq⟩ := List.length_eq_two.mp hlength
    exact hargv name path heq

end Ensures

end ChannelLoader

end UdpAnalyzer.Loader
