import UdpAnalyzer.Loader.Libbpf

/-! What each call does to a loader that knows what is open and attached: one rule for
each call, in terms of the object, the links and the text on standard output. -/

namespace UdpAnalyzer.Loader

open Method (ensures_bind careful_ask careful_pure)

/-- The open object, the links in the order they were made and what was printed. -/
structure Holds (object : Option (ℕ × BpfObject)) (links : List (ℕ × BpfLink)) (text : Str)
    (s : Session) : Prop where
  opened : s.objects = object.toList
  linked : s.links = links
  made : ∀ p ∈ links, p.1 < s.attached
  distinct : (links.map Prod.fst).Nodup
  stdout : s.stdout = text

/-- Nothing is open and nothing attached. -/
abbrev Idle (text : Str) : Session → Prop := Holds none [] text

variable {object : ℕ} {obj : BpfObject} {objects : Option (ℕ × BpfObject)}
  {links : List (ℕ × BpfLink)} {text : Str} {s : Session}

namespace Holds

theorem object?_eq (hs : Holds (some (object, obj)) links text s) :
    s.object? object = some obj := by
  rw [Session.object?, hs.opened]
  exact List.lookup_cons_self

theorem addObject (file : ObjectFile) (hs : Idle text s) :
    Holds (some (s.opened, .ofFile file)) [] text (s.addObject file) where
  opened := by
    show s.objects ++ _ = _
    rw [hs.opened]
    rfl
  linked := hs.linked
  made _ hp := absurd hp List.not_mem_nil
  distinct := List.nodup_nil
  stdout := hs.stdout

theorem modifyObject (f : BpfObject → BpfObject) (hs : Holds (some (object, obj)) links text s) :
    Holds (some (object, f obj)) links text (s.modifyObject object f) where
  opened := by
    show s.objects.map _ = _
    rw [hs.opened]
    exact congrArg (· :: []) (if_pos rfl)
  linked := hs.linked
  made := hs.made
  distinct := hs.distinct
  stdout := hs.stdout

theorem closeObject (hs : Holds (some (object, obj)) links text s) :
    Holds none links text (s.closeObject object) where
  opened := by
    show s.objects.filter _ = _
    rw [hs.opened]
    simp
  linked := hs.linked
  made := hs.made
  distinct := hs.distinct
  stdout := hs.stdout

/-- A new link has a number of its own. -/
theorem addLink (link : BpfLink) (hs : Holds objects links text s) :
    Holds objects (links ++ [(s.attached, link)]) text (s.addLink link) where
  opened := hs.opened
  linked := congrArg (· ++ [(s.attached, link)]) hs.linked
  made := by
    intro p hp
    rcases List.mem_append.mp hp with hp | hp
    · exact Nat.lt_succ_of_lt (hs.made p hp)
    · rw [List.mem_singleton.mp hp]
      exact Nat.lt_succ_self _
  distinct := by
    rw [List.map_append, List.nodup_append]
    refine ⟨hs.distinct, List.pairwise_singleton _ _, ?_⟩
    intro l hl l' hl' heq
    obtain ⟨p, hp, rfl⟩ := List.mem_map.mp hl
    have hnew : l' = s.attached := List.mem_singleton.mp hl'
    have hlt := hs.made p hp
    omega
  stdout := hs.stdout

theorem destroyLink {front : List (ℕ × BpfLink)} {link : ℕ × BpfLink}
    (hs : Holds objects (front ++ link :: links) text s) :
    Holds objects (front ++ links) text (s.destroyLink link.1) where
  opened := hs.opened
  linked := by
    show s.links.filter _ = _
    have hperm : (link.1 :: (front ++ links).map Prod.fst).Nodup := by
      have hdistinct := hs.distinct
      rw [List.map_append, List.map_cons] at hdistinct
      rw [List.map_append]
      exact (List.perm_middle.nodup_iff).mp hdistinct
    have hother : ∀ p ∈ front ++ links, decide (p.1 ≠ link.1) = true := by
      intro p hp
      exact decide_eq_true fun heq =>
        (List.nodup_cons.mp hperm).1 (heq ▸ List.mem_map_of_mem hp)
    have hfilter := List.filter_eq_self.mpr hother
    rw [List.filter_append] at hfilter
    rw [hs.linked, List.filter_append, List.filter_cons_of_neg (by simp), hfilter]
  made p hp := by
    apply hs.made p
    rcases List.mem_append.mp hp with hp | hp
    · exact List.mem_append_left _ hp
    · exact List.mem_append_right _ (List.mem_cons_of_mem link hp)
  distinct := hs.distinct.sublist
    (((List.sublist_cons_self link links).append_left front).map Prod.fst)
  stdout := hs.stdout

theorem print (more : Str) (hs : Holds objects links text s) :
    Holds objects links (text ++ more) { s with stdout := s.stdout ++ more } where
  opened := hs.opened
  linked := hs.linked
  made := hs.made
  distinct := hs.distinct
  stdout := congrArg (· ++ more) hs.stdout

theorem arm (hs : Holds objects links text s) :
    Holds objects links text { s with armed := true } :=
  ⟨hs.opened, hs.linked, hs.made, hs.distinct, hs.stdout⟩

end Holds

/-- The programs of an object from one on. -/
def programsFrom {α : Type} (name : α → Str) (object start : ℕ) (rest : List α) :
    List BpfProgram :=
  rest.mapIdx fun i a => ⟨object, start + i, name a⟩

theorem programsFrom_cons {α : Type} (name : α → Str) (object : ℕ) (front : List α) (a : α)
    (rest : List α) : programsFrom name object front.length (a :: rest) =
      ⟨object, front.length, name a⟩ :: programsFrom name object (front ++ [a]).length rest := by
  unfold programsFrom
  rw [List.mapIdx_cons]
  congr 2
  funext i b
  rw [List.length_append, List.length_singleton, Nat.add_right_comm, Nat.add_assoc]

theorem mapIdx_programs (object : ℕ) (obj : BpfObject) :
    (obj.programs.mapIdx fun i p => ⟨object, i, p.1⟩) =
      programsFrom Prod.fst object 0 obj.programs := by
  unfold programsFrom
  congr 1
  funext i p
  rw [Nat.zero_add]

/-- A map of an object that was loaded has the id it was given then. -/
theorem mapId_of_loaded {maps : List (Str × Option UInt32)} {ids : ℕ → UInt32} {index : ℕ}
    {name : Str} {id : Option UInt32}
    (hmaps : obj.maps = maps.mapIdx fun i m => (m.1, some (ids i)))
    (hfound : obj.maps[index]? = some (name, id)) :
    id = some (ids index) ∧ obj.mapId index = some (ids index) := by
  have hid : id = some (ids index) := by
    rw [hmaps, List.getElem?_mapIdx] at hfound
    obtain ⟨m, _, hm⟩ := Option.map_eq_some_iff.mp hfound
    exact (congrArg Prod.snd hm).symm
  refine ⟨hid, ?_⟩
  rw [BpfObject.mapId, hfound, hid]
  rfl

/-! ### Rules -/

section Rules

variable {S : Type} {self : S} {Waiting : Session → Prop}

theorem ensures_openFile (path : Str) {post : Except Errno ℕ → S → Session → Prop}
    (hs : Idle text s) (herror : ∀ e, post (.error e) self s)
    (hok : ∀ file object t, Holds (some (object, .ofFile file)) [] text t →
      post (.ok object) self t) :
    (Libbpf.openFile path : Meth S ℕ).Ensures serve (terms Waiting) post self s := by
  apply careful_ask (LoaderCall.openFile path) ⟨trivial, fun h => by cases h⟩
  intro reply _
  show post (openObject s (reply (.openFile path))).1 self
    (openObject s (reply (.openFile path))).2
  cases reply (.openFile path) with
  | error e => exact herror e
  | ok file => exact hok file s.opened _ (hs.addObject file)

theorem ensures_programs {post : Except Errno (List BpfProgram) → S → Session → Prop}
    (hs : Holds (some (object, obj)) links text s)
    (hok : post (.ok (programsFrom Prod.fst object 0 obj.programs)) self s) :
    (Libbpf.programs object : Meth S (List BpfProgram)).Ensures serve (terms Waiting) post self
      s := by
  have hcall : Sound (.programs object) s := Option.isSome_of_eq_some hs.object?_eq
  apply careful_ask (LoaderCall.programs object) ⟨hcall, fun h => by cases h⟩
  intro reply _
  show post (.ok (s.programsOf object)) self s
  rw [Session.programsOf, hs.object?_eq]
  dsimp only
  rwa [mapIdx_programs]

theorem ensures_setAutoload {program : BpfProgram} (autoload : Bool)
    {post : Except Errno Unit → S → Session → Prop}
    (hs : Holds (some (program.object, obj)) links text s) (hloaded : obj.loaded = false)
    (hok : ∀ t, Holds (some (program.object, obj.setAutoload program.index autoload)) links text t →
      post (.ok ()) self t) :
    (Libbpf.setAutoload program autoload : Meth S Unit).Ensures serve (terms Waiting) post self
      s := by
  apply careful_ask (LoaderCall.setAutoload program autoload)
    ⟨⟨obj, hs.object?_eq, hloaded⟩, fun h => by cases h⟩
  exact fun _ _ => hok _ (hs.modifyObject (·.setAutoload program.index autoload))

theorem ensures_load {post : Except Errno Unit → S → Session → Prop}
    (hs : Holds (some (object, obj)) links text s) (hloaded : obj.loaded = false)
    (herror : ∀ e, post (.error e) self s)
    (hok : ∀ ids : ℕ → UInt32, (∀ i, 0 < ids i) → ∀ t,
      Holds (some (object, obj.load ids)) links text t → post (.ok ()) self t) :
    (Libbpf.load object : Meth S Unit).Ensures serve (terms Waiting) post self s := by
  apply careful_ask (LoaderCall.load object) ⟨⟨obj, hs.object?_eq, hloaded⟩, fun h => by cases h⟩
  intro reply hreply
  show post (loadObject object s (reply (.load object))).1 self
    (loadObject object s (reply (.load object))).2
  cases hids : reply (.load object) with
  | error e => exact herror e
  | ok ids => exact hok ids (hreply ids hids) _ (hs.modifyObject (·.load ids))

/-- An attempt to attach, whichever way. -/
theorem ensures_attachLink {link : BpfLink} {post : Except Errno ℕ → S → Session → Prop}
    (hs : Holds objects links text s) (herror : ∀ e, post (.error e) self s)
    (hok : ∀ l t, Holds objects (links ++ [(l, link)]) text t → post (.ok l) self t)
    (reply : Except Errno Unit) :
    post (attachLink link s reply).1 self (attachLink link s reply).2 := by
  cases reply with
  | error e => exact herror e
  | ok _ => exact hok s.attached _ (hs.addLink link)

theorem ensures_attachTrace {program : BpfProgram} {post : Except Errno ℕ → S → Session → Prop}
    (hs : Holds (some (program.object, obj)) links text s) (hloaded : obj.loaded = true)
    (hprogram : obj.programs[program.index]? = some (program.name, true))
    (herror : ∀ e, post (.error e) self s)
    (hok : ∀ l t, Holds (some (program.object, obj)) (links ++ [(l, ⟨program, .trace⟩)]) text t →
      post (.ok l) self t) :
    (Libbpf.attachTrace program : Meth S ℕ).Ensures serve (terms Waiting) post self s := by
  apply careful_ask (LoaderCall.attachTrace program)
    ⟨⟨obj, hs.object?_eq, hloaded, hprogram⟩, fun h => by cases h⟩
  exact fun _ _ => ensures_attachLink hs herror hok _

theorem ensures_attachKprobe {program : BpfProgram} (retprobe : Bool) (function : Str)
    {post : Except Errno ℕ → S → Session → Prop}
    (hs : Holds (some (program.object, obj)) links text s) (hloaded : obj.loaded = true)
    (hprogram : obj.programs[program.index]? = some (program.name, true))
    (herror : ∀ e, post (.error e) self s)
    (hok : ∀ l t, Holds (some (program.object, obj))
      (links ++ [(l, ⟨program, .kprobe retprobe function⟩)]) text t → post (.ok l) self t) :
    (Libbpf.attachKprobe program retprobe function : Meth S ℕ).Ensures serve (terms Waiting) post
      self s := by
  apply careful_ask (LoaderCall.attachKprobe program retprobe function)
    ⟨⟨obj, hs.object?_eq, hloaded, hprogram⟩, fun h => by cases h⟩
  exact fun _ _ => ensures_attachLink hs herror hok _

theorem ensures_findMapByName (name : Str) {post : Except Errno (Option BpfMap) → S → Session → Prop}
    (hs : Holds (some (object, obj)) links text s)
    (hnone : post (.ok none) self s)
    (hok : ∀ index id, obj.maps[index]? = some (name, id) →
      post (.ok (some ⟨object, index⟩)) self s) :
    (Libbpf.findMapByName object name : Meth S (Option BpfMap)).Ensures serve (terms Waiting) post
      self s := by
  have hcall : Sound (.findMapByName object name) s := Option.isSome_of_eq_some hs.object?_eq
  apply careful_ask (LoaderCall.findMapByName object name) ⟨hcall, fun h => by cases h⟩
  intro reply _
  show post (.ok (s.findMapByName object name)) self s
  rw [Session.findMapByName, hs.object?_eq]
  show post (.ok ((obj.maps.findIdx? fun m => m.1 = name).bind fun index => some ⟨object, index⟩))
    self s
  cases hfound : obj.maps.findIdx? fun m => m.1 = name with
  | none => exact hnone
  | some index =>
    obtain ⟨hlt, hname, _⟩ := List.findIdx?_eq_some_iff_getElem.mp hfound
    apply hok index (obj.maps[index]).2
    rw [List.getElem?_eq_getElem hlt]
    exact congrArg some (Prod.ext (of_decide_eq_true hname) rfl)

theorem ensures_mapInfo {index : ℕ} {id : UInt32} {post : Except Errno UInt32 → S → Session → Prop}
    (hs : Holds (some (object, obj)) links text s) (hid : obj.mapId index = some id)
    (herror : ∀ e, post (.error e) self s) (hok : post (.ok id) self s) :
    (Libbpf.mapInfo ⟨object, index⟩ : Meth S UInt32).Ensures serve (terms Waiting) post self s := by
  have hmap : s.mapId ⟨object, index⟩ = some id := by
    rw [Session.mapId, hs.object?_eq]
    exact hid
  have hcall : Sound (.mapInfo ⟨object, index⟩) s := Option.isSome_of_eq_some hmap
  apply careful_ask (LoaderCall.mapInfo ⟨object, index⟩) ⟨hcall, fun h => by cases h⟩
  intro reply _
  show post (readMapInfo s ⟨object, index⟩ (reply (.mapInfo ⟨object, index⟩))).1 self
    (readMapInfo s ⟨object, index⟩ (reply (.mapInfo ⟨object, index⟩))).2
  cases reply (.mapInfo ⟨object, index⟩) with
  | error e => exact herror e
  | ok _ =>
    show post ((s.mapId ⟨object, index⟩).elim (.error .ebadf) .ok) self s
    rw [hmap]
    exact hok

theorem ensures_realloc {post : Except Errno Unit → S → Session → Prop}
    (herror : ∀ e, post (.error e) self s) (hok : post (.ok ()) self s) :
    (Libbpf.realloc : Meth S Unit).Ensures serve (terms Waiting) post self s := by
  apply careful_ask LoaderCall.realloc ⟨trivial, fun h => by cases h⟩
  intro reply _
  show post ((reply .realloc).mapError _) self s
  cases reply .realloc with
  | error e => exact herror _
  | ok _ => exact hok

theorem ensures_destroyLink (front : List (ℕ × BpfLink)) {link : ℕ × BpfLink}
    {post : Except Errno Unit → S → Session → Prop}
    (hs : Holds objects (front ++ link :: links) text s)
    (hok : ∀ t, Holds objects (front ++ links) text t → post (.ok ()) self t) :
    (Libbpf.destroyLink link.1 : Meth S Unit).Ensures serve (terms Waiting) post self s := by
  have hcall : Sound (.destroyLink link.1) s := by
    show link.1 ∈ s.links.map Prod.fst
    rw [hs.linked]
    exact List.mem_map_of_mem (List.mem_append_right front List.mem_cons_self)
  apply careful_ask (LoaderCall.destroyLink link.1) ⟨hcall, fun h => by cases h⟩
  exact fun _ _ => hok _ hs.destroyLink

theorem ensures_closeObject {post : Except Errno Unit → S → Session → Prop}
    (hs : Holds (some (object, obj)) [] text s)
    (hok : ∀ t, Idle text t → post (.ok ()) self t) :
    (Libbpf.closeObject object : Meth S Unit).Ensures serve (terms Waiting) post self s := by
  have hcall : Sound (.closeObject object) s := by
    refine ⟨Option.isSome_of_eq_some hs.object?_eq, ?_⟩
    rw [hs.linked]
    exact fun p hp => absurd hp List.not_mem_nil
  apply careful_ask (LoaderCall.closeObject object) ⟨hcall, fun h => by cases h⟩
  exact fun _ _ => hok _ hs.closeObject

/-- The end of `destroy_state`. -/
theorem ensures_ifSome_closeObject {pointer : Option ℕ}
    {post : Except Errno Unit → S → Session → Prop} (hpointer : pointer = objects.map Prod.fst)
    (hs : Holds objects [] text s) (hok : ∀ t, Idle text t → post (.ok ()) self t) :
    (ifSome pointer Libbpf.closeObject : Meth S Unit).Ensures serve (terms Waiting) post self s := by
  subst hpointer
  cases objects with
  | none => exact careful_pure (hok s hs)
  | some p => exact ensures_closeObject hs hok

theorem ensures_complain {message : Str} {error : Option Errno}
    {post : Except Errno Unit → S → Session → Prop} (hok : post (.ok ()) self s) :
    (Libbpf.complain message error : Meth S Unit).Ensures serve (terms Waiting) post self s :=
  careful_ask (LoaderCall.complain message error) ⟨trivial, fun h => by cases h⟩ fun _ _ => hok

theorem ensures_print (more : Str) {post : Except Errno Unit → S → Session → Prop}
    (hs : Holds objects links text s)
    (hok : ∀ t, Holds objects links (text ++ more) t → post (.ok ()) self t) :
    (Libbpf.print more : Meth S Unit).Ensures serve (terms Waiting) post self s :=
  careful_ask (LoaderCall.print more) ⟨trivial, fun h => by cases h⟩ fun _ _ => hok _ (hs.print more)

theorem ensures_installHandlers {post : Except Errno Unit → S → Session → Prop}
    (hs : Holds objects links text s)
    (hok : ∀ t, Holds objects links text t → post (.ok ()) self t) :
    (Libbpf.installHandlers : Meth S Unit).Ensures serve (terms Waiting) post self s :=
  careful_ask LoaderCall.installHandlers ⟨trivial, fun h => by cases h⟩ fun _ _ => hok _ hs.arm

theorem ensures_stopping {post : Except Errno Bool → S → Session → Prop}
    (hok : ∀ b, post (.ok b) self s) :
    (Libbpf.stopping : Meth S Bool).Ensures serve (terms Waiting) post self s :=
  careful_ask LoaderCall.stopping ⟨trivial, fun h => by cases h⟩ fun _ _ => hok _

theorem ensures_pause {post : Except Errno Unit → S → Session → Prop} (hwaiting : Waiting s)
    (hok : post (.ok ()) self s) :
    (Libbpf.pause : Meth S Unit).Ensures serve (terms Waiting) post self s :=
  careful_ask LoaderCall.pause ⟨trivial, fun _ => hwaiting⟩ fun _ _ => hok

/-- Nothing changes while a loader waits. -/
theorem ensures_awaitSignal {rounds : ℕ} {post : Except Errno Unit → S → Session → Prop}
    (hwaiting : Waiting s) (hok : post (.ok ()) self s) :
    (awaitSignal rounds : Meth S Unit).Ensures serve (terms Waiting) post self s := by
  apply Method.ensures_repeatUntil (fun self' t => self' = self ∧ t = s) _ rounds ⟨rfl, rfl⟩
  rintro self' t ⟨rfl, rfl⟩
  apply ensures_bind
  apply ensures_stopping
  intro stopping
  cases stopping with
  | true => exact careful_pure hok
  | false =>
    apply ensures_bind
    exact ensures_pause hwaiting (careful_pure ⟨rfl, rfl⟩)

end Rules

end UdpAnalyzer.Loader
