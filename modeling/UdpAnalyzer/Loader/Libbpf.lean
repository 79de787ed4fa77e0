import UdpAnalyzer.Lib.Method
import UdpAnalyzer.Models

/-! What the loaders (`src/bpf/*_loader.c`) ask of libbpf and of the C library: the
objects they open, the programs, maps and links of these, standard output and the stop
flag. The environment decides which calls fail, what an object file holds and which ids
the kernel gives to maps. -/

namespace UdpAnalyzer.Loader

/-- An error number; functions return its negation. -/
structure Errno where
  code : ℕ
  pos : 0 < code
  deriving DecidableEq, Repr

namespace Errno

def enoent : Errno := ⟨2, by decide⟩

def enomem : Errno := ⟨12, by decide⟩

def ebadf : Errno := ⟨9, by decide⟩

def einval : Errno := ⟨22, by decide⟩

end Errno

/-- `struct bpf_program *`, with the name it answers. -/
structure BpfProgram where
  object : ℕ
  index : ℕ
  name : Str
  deriving DecidableEq, Repr

/-- `struct bpf_map *`. -/
structure BpfMap where
  object : ℕ
  index : ℕ
  deriving DecidableEq, Repr

inductive Hook where
  | trace
  | kprobe (retprobe : Bool) (function : Str)
  deriving DecidableEq, Repr

/-- `struct bpf_link`. -/
structure BpfLink where
  program : BpfProgram
  hook : Hook
  deriving DecidableEq, Repr

/-- The names of the programs and maps of an object file. -/
structure ObjectFile where
  programs : List Str
  maps : List Str

/-- `struct bpf_object`: the programs with their autoload flags, the maps with the ids
they have once the object is loaded. -/
structure BpfObject where
  programs : List (Str × Bool)
  maps : List (Str × Option UInt32)
  loaded : Bool := false
  deriving DecidableEq, Repr

namespace BpfObject

/-- An object as it is opened: every program is to be loaded. -/
def ofFile (file : ObjectFile) : BpfObject where
  programs := file.programs.map fun name => (name, true)
  maps := file.maps.map fun name => (name, none)

def setAutoload (obj : BpfObject) (index : ℕ) (autoload : Bool) : BpfObject :=
  { obj with programs := obj.programs.modify index fun p => (p.1, autoload) }

def load (obj : BpfObject) (ids : ℕ → UInt32) : BpfObject :=
  { obj with maps := obj.maps.mapIdx fun i m => (m.1, some (ids i)), loaded := true }

/-- The id behind a map. -/
def mapId (obj : BpfObject) (index : ℕ) : Option UInt32 := (obj.maps[index]?).bind Prod.snd

end BpfObject

structure Session where
  /-- How many objects were opened so far, and those that are open. -/
  opened : ℕ := 0
  objects : List (ℕ × BpfObject) := []
  /-- How many links were made so far, and those that are there. -/
  attached : ℕ := 0
  links : List (ℕ × BpfLink) := []
  stdout : Str := []
  /-- Both signal handlers are installed. -/
  armed : Bool := false
  deriving DecidableEq, Repr

inductive LoaderCall where
  | openFile (path : Str)
  | programs (object : ℕ)
  | setAutoload (program : BpfProgram) (autoload : Bool)
  | load (object : ℕ)
  | attachTrace (program : BpfProgram)
  | attachKprobe (program : BpfProgram) (retprobe : Bool) (function : Str)
  | findMapByName (object : ℕ) (name : Str)
  | mapInfo (map : BpfMap)
  | realloc
  | destroyLink (link : ℕ)
  | closeObject (object : ℕ)
  /-- A message on standard error, perhaps with the text of an error number. -/
  | complain (message : Str) (error : Option Errno)
  | print (text : Str)
  | installHandlers
  | stopping
  | pause
  deriving DecidableEq

/-- What a call answers when it does not fail. -/
def Value : LoaderCall → Type
  | .openFile _ => ℕ
  | .programs _ => List BpfProgram
  | .attachTrace _ => ℕ
  | .attachKprobe .. => ℕ
  | .findMapByName .. => Option BpfMap
  | .mapInfo _ => UInt32
  | .stopping => Bool
  | _ => Unit

/-- What the environment adds to a call that does not fail. -/
def Given : LoaderCall → Type
  | .openFile _ => ObjectFile
  | .load _ => ℕ → UInt32
  | _ => Unit

abbrev Reply := (op : LoaderCall) → Except Errno (Given op)

namespace Session

/-- What an open object is. -/
def object? (s : Session) (object : ℕ) : Option BpfObject := s.objects.lookup object

def addObject (s : Session) (file : ObjectFile) : Session :=
  { s with opened := s.opened + 1, objects := s.objects ++ [(s.opened, .ofFile file)] }

def modifyObject (s : Session) (object : ℕ) (f : BpfObject → BpfObject) : Session :=
  { s with objects := s.objects.map fun p => if p.1 = object then (p.1, f p.2) else p }

def closeObject (s : Session) (object : ℕ) : Session :=
  { s with objects := s.objects.filter fun p => p.1 ≠ object }

def addLink (s : Session) (link : BpfLink) : Session :=
  { s with attached := s.attached + 1, links := s.links ++ [(s.attached, link)] }

def destroyLink (s : Session) (link : ℕ) : Session :=
  { s with links := s.links.filter fun p => p.1 ≠ link }

/-- `bpf_object__for_each_program`. -/
def programsOf (s : Session) (object : ℕ) : List BpfProgram :=
  match s.object? object with
  | some obj => obj.programs.mapIdx fun i p => ⟨object, i, p.1⟩
  | none => []

def findMapByName (s : Session) (object : ℕ) (name : Str) : Option BpfMap := do
  let obj ← s.object? object
  let index ← obj.maps.findIdx? fun m => m.1 = name
  return ⟨object, index⟩

def mapId (s : Session) (map : BpfMap) : Option UInt32 := do
  let obj ← s.object? map.object
  obj.mapId map.index

end Session

/-! What the calls that can fail do, given what the environment decided. -/

def openObject (s : Session) : Except Errno ObjectFile → Except Errno ℕ × Session
  | .ok file => (.ok s.opened, s.addObject file)
  | .error e => (.error e, s)

def loadObject (object : ℕ) (s : Session) : Except Errno (ℕ → UInt32) → Except Errno Unit × Session
  | .ok ids => (.ok (), s.modifyObject object (·.load ids))
  | .error e => (.error e, s)

/-- A map of an object that is not loaded has no descriptor. -/
def readMapInfo (s : Session) (map : BpfMap) : Except Errno Unit → Except Errno UInt32 × Session
  | .ok _ => ((s.mapId map).elim (.error .ebadf) .ok, s)
  | .error e => (.error e, s)

def attachLink (link : BpfLink) (s : Session) : Except Errno Unit → Except Errno ℕ × Session
  | .ok _ => (.ok s.attached, s.addLink link)
  | .error e => (.error e, s)

/-- How libbpf and the C library answer. -/
def serve : Script.Server LoaderCall Value Errno Reply Session
  | .openFile path, reply, s => openObject s (reply (.openFile path))
  | .programs object, _, s => (.ok (s.programsOf object), s)
  | .setAutoload program autoload, _, s =>
    (.ok (), s.modifyObject program.object (·.setAutoload program.index autoload))
  | .load object, reply, s => loadObject object s (reply (.load object))
  | .attachTrace program, reply, s => attachLink ⟨program, .trace⟩ s (reply (.attachTrace program))
  | .attachKprobe program retprobe function, reply, s =>
    attachLink ⟨program, .kprobe retprobe function⟩ s
      (reply (.attachKprobe program retprobe function))
  | .findMapByName object name, _, s => (.ok (s.findMapByName object name), s)
  | .mapInfo map, reply, s => readMapInfo s map (reply (.mapInfo map))
  | .realloc, reply, s => ((reply .realloc).mapError fun _ => .enomem, s)
  | .destroyLink link, _, s => (.ok (), s.destroyLink link)
  | .closeObject object, _, s => (.ok (), s.closeObject object)
  | .complain .., _, s => (.ok (), s)
  | .print text, _, s => (.ok (), { s with stdout := s.stdout ++ text })
  | .installHandlers, _, s => (.ok (), { s with armed := true })
  -- only the handlers set the flag
  | .stopping, reply, s => (.ok (s.armed && (reply .stopping).toBool), s)
  | .pause, _, s => (.ok (), s)

/-- The functions of a loader, which work on its `struct loaded_state`. -/
abbrev Meth (S α : Type) := Method LoaderCall Value Errno S α

/-- `if (pointer) f(pointer);` -/
def ifSome {S α : Type} (pointer : Option α) (f : α → Meth S Unit) : Meth S Unit :=
  match pointer with
  | some a => f a
  | none => pure ()

/-! ### Calls, with the types of their answers -/

namespace Libbpf

variable {S : Type}

def openFile (path : Str) : Meth S ℕ := Method.ask (LoaderCall.openFile path)

def programs (object : ℕ) : Meth S (List BpfProgram) := Method.ask (LoaderCall.programs object)

def setAutoload (program : BpfProgram) (autoload : Bool) : Meth S Unit :=
  Method.ask (LoaderCall.setAutoload program autoload)

def load (object : ℕ) : Meth S Unit := Method.ask (LoaderCall.load object)

def attachTrace (program : BpfProgram) : Meth S ℕ := Method.ask (LoaderCall.attachTrace program)

def attachKprobe (program : BpfProgram) (retprobe : Bool) (function : Str) : Meth S ℕ :=
  Method.ask (LoaderCall.attachKprobe program retprobe function)

def findMapByName (object : ℕ) (name : Str) : Meth S (Option BpfMap) :=
  Method.ask (LoaderCall.findMapByName object name)

def mapInfo (map : BpfMap) : Meth S UInt32 := Method.ask (LoaderCall.mapInfo map)

def realloc : Meth S Unit := Method.ask LoaderCall.realloc

def destroyLink (link : ℕ) : Meth S Unit := Method.ask (LoaderCall.destroyLink link)

def closeObject (object : ℕ) : Meth S Unit := Method.ask (LoaderCall.closeObject object)

def complain (message : Str) (error : Option Errno) : Meth S Unit :=
  Method.ask (LoaderCall.complain message error)

def print (text : Str) : Meth S Unit := Method.ask (LoaderCall.print text)

def installHandlers : Meth S Unit := Method.ask LoaderCall.installHandlers

def stopping : Meth S Bool := Method.ask LoaderCall.stopping

def pause : Meth S Unit := Method.ask LoaderCall.pause

end Libbpf

/-- One turn of `while (!stopping) pause();`. -/
def waitRound {S : Type} : Meth S (Option Unit) := do
  if ← Libbpf.stopping then pure (some ())
  else do
    Libbpf.pause
    pure none

/-- Waiting for a signal, for so many rounds. -/
def awaitSignal {S : Type} (rounds : ℕ) : Meth S Unit := Method.repeatUntil waitRound rounds

/-! ### What a loader may rely on, and what its calls are promised to be -/

/-- The kernel numbers maps from one up. -/
def Documented : LoaderCall → Reply → Session → Prop
  | .load object, reply, _ => ∀ ids, reply (.load object) = .ok ids → ∀ i, 0 < ids i
  | _, _, _ => True

/-- A program may be attached once its object is loaded, if it is loaded with it. -/
def Session.Attachable (s : Session) (program : BpfProgram) : Prop :=
  ∃ obj, s.object? program.object = some obj ∧ obj.loaded = true ∧
    obj.programs[program.index]? = some (program.name, true)

/-- A call on what is there, in the state the call is for: nothing is closed or destroyed
twice, no object is closed under a link of its programs. -/
def Sound : LoaderCall → Session → Prop
  | .programs object, s => (s.object? object).isSome
  | .setAutoload program _, s => ∃ obj, s.object? program.object = some obj ∧ obj.loaded = false
  | .load object, s => ∃ obj, s.object? object = some obj ∧ obj.loaded = false
  | .attachTrace program, s => s.Attachable program
  | .attachKprobe program _ _, s => s.Attachable program
  | .findMapByName object _, s => (s.object? object).isSome
  | .mapInfo map, s => (s.mapId map).isSome
  | .destroyLink link, s => link ∈ s.links.map Prod.fst
  | .closeObject object, s =>
    (s.object? object).isSome ∧ ∀ p ∈ s.links, p.2.program.object ≠ object
  | _, _ => True

/-- The terms of a loader that waits only in states `Waiting`. -/
def terms (Waiting : Session → Prop) : Contract LoaderCall Reply Session :=
  .careful Documented fun op s => Sound op s ∧ (op = .pause → Waiting s)

end UdpAnalyzer.Loader
