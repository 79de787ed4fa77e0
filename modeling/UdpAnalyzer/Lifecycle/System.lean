import UdpAnalyzer.Channel.Collector
import UdpAnalyzer.Decode
import UdpAnalyzer.Lib.Method
import UdpAnalyzer.Lib.Text

/-! The system the analyzer runs on, as far as the life of a collector goes: the tc
filters of the machine, the loader process of each collector, the signal handlers and
the writer. A call is answered by the environment, except where the machine's own
state decides: whether there is a filter to delete, whether a process still runs. -/

namespace UdpAnalyzer

/-- The commands the collector runs. -/
inductive Command where
  | tcQdiscAdd (ifname : Str)
  | tcFilterAdd (ifname : Str) (pref : ℤ) (objectPath sec : Str)
  | tcFilterDel (ifname : Str) (pref : ℤ)
  | bpftoolProgShow
  | bpftoolMapShow
  | ipRouteShowDefault

/-- The argument vector of a command. -/
def Command.args : Command → List Str
  | tcQdiscAdd ifname =>
    ["tc".toList, "qdisc".toList, "add".toList, "dev".toList, ifname, "clsact".toList]
  | tcFilterAdd ifname pref objectPath sec =>
    ["tc".toList, "filter".toList, "add".toList, "dev".toList, ifname, "ingress".toList,
      "protocol".toList, "ip".toList, "pref".toList, Json.reprInt pref, "bpf".toList, "da".toList,
      "obj".toList, objectPath, "sec".toList, sec]
  | tcFilterDel ifname pref =>
    ["tc".toList, "filter".toList, "del".toList, "dev".toList, ifname, "ingress".toList,
      "pref".toList, Json.reprInt pref]
  | bpftoolProgShow => ["bpftool".toList, "-j".toList, "prog".toList, "show".toList]
  | bpftoolMapShow => ["bpftool".toList, "-j".toList, "map".toList, "show".toList]
  | ipRouteShowDefault => ["ip".toList, "route".toList, "show".toList, "default".toList]

/-- Printed text and what `json.loads` makes of it. -/
structure Printed where
  text : Str := []
  json : Except PyExc Json := .ok .null

structure CompletedProcess where
  returncode : ℤ := 0
  stdout : Printed := {}
  stderr : Str := []

inductive Signal where
  | sigterm | sigint
  deriving DecidableEq, Repr

/-- The rows that a checkpoint returns, of `run` or of `run-channels`. -/
inductive Samples where
  | udp (rows : List UdpSample)
  | channel (rows : List ChannelSample)

/-- What the program asks of the system. -/
inductive SystemCall where
  | pathExists (path : Str)
  | run (command : Command) (viaSudo : Bool)
  | environGet (name : Str)
  | popen (args : List Str)
  | select (timeout : ℕ)
  | readline
  | communicate (timeout : Option ℕ)
  | poll
  | terminate
  | kill
  | wait
  | kernelHasNonblock
  | geteuid
  | openStderr
  | readStderr
  | closeStderr
  | loadCatalog
  | createWriter
  | monotonic
  | installHandler (signum : Signal)
  | enterTry
  | readCheckpoint
  | emitSamples (samples : Samples)
  | writeSamples (samples : Samples)
  | sleep
  | exceptClause
  | flush
  | closeWriter

/-- What a call answers when it does not raise. -/
def Value : SystemCall → Type
  | .pathExists _ => Bool
  | .run _ _ => CompletedProcess
  | .environGet _ => Option Str
  | .select _ => Bool
  | .readline => Printed
  | .communicate _ => CompletedProcess
  | .poll => Option ℤ
  | .wait => ℤ
  | .kernelHasNonblock => Option Bool
  | .geteuid => ℤ
  | .readStderr => Str
  | .monotonic => ℤ
  | .readCheckpoint => Samples
  | _ => Unit

abbrev Answer (op : SystemCall) := Except PyExc (Value op)

/-- What the environment decides about a call. -/
abbrev Reply := (op : SystemCall) → Answer op

/-- A signal: the call it arrives at raises instead of completing. -/
def Reply.signal : Reply := fun _ => .error .keyboardInterrupt

/-- Calls of the writer's methods, and those of them that returned. -/
structure WriterCalls where
  created : Bool := false
  flushCalled : Bool := false
  flushed : Bool := false
  closeCalled : Bool := false
  closed : Bool := false
  deriving DecidableEq, Repr

structure Machine where
  /-- Interface, preference and installing collector of every filter. -/
  filters : List (Str × ℤ × ℕ) := []
  /-- Which collectors have a loader process running. -/
  loader : ℕ → Bool := fun _ => false
  /-- Both signal handlers are installed. -/
  armed : Bool := false
  writer : WriterCalls := {}

namespace Machine

instance filterLawfulBEq : LawfulBEq (Str × ℤ × ℕ) := inferInstance

/-- The filters at an interface and preference. -/
def filtersAt (m : Machine) (ifname : Str) (pref : ℤ) : List (Str × ℤ × ℕ) :=
  m.filters.filter fun f => f.1 = ifname && f.2.1 = pref

/-- What a call of collector `me` answers, given the environment's reply: deleting a
filter that is not there fails, and a running process has no exit status. -/
def answer (me : ℕ) : (op : SystemCall) → Answer op → Machine → Answer op
  | .run (.tcFilterDel ifname pref) _, .ok out, m =>
    if m.filtersAt ifname pref = [] ∧ out.returncode = 0 then
      .ok { out with returncode := 2, stderr := "Error: Filter not found.".toList }
    else .ok out
  | .poll, .ok status, m => .ok (if m.loader me then status else some (status.getD 0))
  | _, reply, _ => reply

def addFilter (m : Machine) (ifname : Str) (pref : ℤ) (me : ℕ) : Machine :=
  { m with filters := m.filters ++ [(ifname, pref, me)] }

/-- Deleting by preference takes every filter there, whoever installed it. -/
def deleteFilters (m : Machine) (ifname : Str) (pref : ℤ) : Machine :=
  { m with filters := m.filters.filter fun f => !(f.1 = ifname && f.2.1 = pref) }

def setLoader (m : Machine) (me : ℕ) (running : Bool) : Machine :=
  { m with loader := Function.update m.loader me running }

/-- What a call of collector `me` does to the machine, given its answer. -/
def effect (me : ℕ) : (op : SystemCall) → Answer op → Machine → Machine
  | .run (.tcFilterAdd ifname pref _ _) _, .ok out, m =>
    if out.returncode = 0 then m.addFilter ifname pref me else m
  | .run (.tcFilterDel ifname pref) _, .ok out, m =>
    if out.returncode = 0 then m.deleteFilters ifname pref else m
  | .popen _, .ok _, m => m.setLoader me true
  | .poll, .ok (some _), m => m.setLoader me false
  | .communicate _, .ok _, m => m.setLoader me false
  | .wait, .ok _, m => m.setLoader me false
  | .installHandler .sigint, .ok _, m => { m with armed := true }
  | .createWriter, .ok _, m => { m with writer := { m.writer with created := true } }
  | .flush, r, m =>
    let flushed := m.writer.flushed || r.isOk
    { m with writer := { m.writer with flushCalled := true, flushed } }
  | .closeWriter, r, m =>
    let closed := m.writer.closed || r.isOk
    { m with writer := { m.writer with closeCalled := true, closed } }
  | _, _, m => m

end Machine

/-- The system as collector `me` meets it. -/
def serve (me : ℕ) : Script.Server SystemCall Value PyExc Reply Machine := fun op reply m =>
  let answer := Machine.answer me op (reply op) m
  (answer, Machine.effect me op answer m)

inductive CallKind where
  | filters | loader | plain | analyzer
  deriving DecidableEq, Repr

/-- What a call is about: the filters, the loader process, nothing the machine keeps, or
the analyzer around the collector. -/
def SystemCall.kind : SystemCall → CallKind
  | .run (.tcFilterAdd ..) _ | .run (.tcFilterDel ..) _ => .filters
  | .popen _ | .select _ | .readline | .communicate _ | .poll | .terminate | .kill | .wait => .loader
  | .pathExists _ | .run _ _ | .environGet _ | .kernelHasNonblock | .geteuid | .openStderr
  | .readStderr | .closeStderr | .loadCatalog => .plain
  | _ => .analyzer

namespace Machine

variable {me : ℕ} {op : SystemCall}

theorem effect_filters (h : op.kind ≠ .filters) (answer : Answer op) (m : Machine) :
    (effect me op answer m).filters = m.filters := by
  unfold effect
  split <;> first | rfl | exact absurd rfl h

theorem effect_loader (h : op.kind ≠ .loader) (answer : Answer op) (m : Machine) :
    (effect me op answer m).loader = m.loader := by
  unfold effect
  split <;> first | rfl | exact absurd rfl h | (split <;> rfl)

theorem effect_analyzer (h : op.kind ≠ .analyzer) (answer : Answer op) (m : Machine) :
    (effect me op answer m).armed = m.armed ∧ (effect me op answer m).writer = m.writer := by
  unfold effect
  split <;> first | exact ⟨rfl, rfl⟩ | exact absurd rfl h | (split <;> exact ⟨rfl, rfl⟩)

end Machine

/-! ### Calls, with the types of their answers -/

/-- Methods of the program's objects. -/
abbrev Meth (S α : Type) := Method SystemCall Value PyExc S α

namespace Sys

variable {S : Type}

def pathExists (path : Str) : Meth S Bool := Method.ask (SystemCall.pathExists path)

def run (command : Command) (viaSudo : Bool) : Meth S CompletedProcess :=
  Method.ask (SystemCall.run command viaSudo)

def environGet (name : Str) : Meth S (Option Str) := Method.ask (SystemCall.environGet name)

def popen (args : List Str) : Meth S Unit := Method.ask (SystemCall.popen args)

def select (timeout : ℕ) : Meth S Bool := Method.ask (SystemCall.select timeout)

def readline : Meth S Printed := Method.ask SystemCall.readline

def communicate (timeout : Option ℕ) : Meth S CompletedProcess :=
  Method.ask (SystemCall.communicate timeout)

def poll : Meth S (Option ℤ) := Method.ask SystemCall.poll

def terminate : Meth S Unit := Method.ask SystemCall.terminate

def kill : Meth S Unit := Method.ask SystemCall.kill

def wait : Meth S ℤ := Method.ask SystemCall.wait

def kernelHasNonblock : Meth S (Option Bool) := Method.ask SystemCall.kernelHasNonblock

def geteuid : Meth S ℤ := Method.ask SystemCall.geteuid

def openStderr : Meth S Unit := Method.ask SystemCall.openStderr

def readStderr : Meth S Str := Method.ask SystemCall.readStderr

def closeStderr : Meth S Unit := Method.ask SystemCall.closeStderr

def monotonic : Meth S ℤ := Method.ask SystemCall.monotonic

end Sys

end UdpAnalyzer
