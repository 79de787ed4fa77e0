import Mathlib.Algebra.Group.Int.Defs
import Mathlib.Data.Int.Notation
import Mathlib.Data.Nat.Notation
import Mathlib.Data.Option.Basic
import UdpAnalyzer.Lib.Except
import UdpAnalyzer.Lib.Text

/-! Samples, filters and clock arithmetic shared by the collectors
(`models.py`), with the exceptions the modelled functions raise and the text
type. Python integers are `ℤ`, Python text is a list of characters. -/

namespace UdpAnalyzer

/-- Text. -/
abbrev Str := List Char

inductive OsErrorKind where
  | fileNotFound | permission | other
  deriving DecidableEq, Repr

/-- Exceptions, with the messages the program gives the ones it raises itself. A
`runtimeError` may be of a class below it, such as `RecursionError`. -/
inductive PyExc where
  | runtimeError (message : String)
  | osError (kind : OsErrorKind := .other)
  | unicodeDecodeError
  | valueError
  | jsonDecodeError
  | structError
  | overflowError
  | keyError
  | typeError
  | attributeError
  | timeoutExpired
  | keyboardInterrupt
  | other (name : String)
  deriving DecidableEq, Repr

instance decidableEqExcept {ε α : Type*} [DecidableEq ε] [DecidableEq α] : DecidableEq (Except ε α)
  | .error x, .error y => decidable_of_iff (x = y) ⟨congrArg _, Except.error.inj⟩
  | .ok a, .ok b => decidable_of_iff (a = b) ⟨congrArg _, Except.ok.inj⟩
  | .error _, .ok _ => .isFalse nofun
  | .ok _, .error _ => .isFalse nofun

inductive Layer where
  | ingress | delivered | tcpChannel | udpChannel
  deriving DecidableEq, Repr

def udpProto : ℤ := 17

structure UdpSample where
  bucketStartNs : ℤ
  bucketMs : ℤ
  srcIp : Str
  dstIp : Str
  srcPort : ℤ
  dstPort : ℤ
  ifindex : ℤ
  ifname : Str
  packets : ℤ
  bytes : ℤ
  ipProto : ℤ := udpProto
  netnsId : ℤ := 0
  containerId : Str := []
  processName : Str := []
  hostPid : ℤ := 0
  containerPid : ℤ := 0
  socketId : ℤ := 0
  layer : Layer := .ingress
  deriving DecidableEq, Repr

structure SampleFilter where
  srcIp : Option Str := none
  dstIp : Option Str := none
  srcPort : Option ℤ := none
  dstPort : Option ℤ := none
  ifname : Option Str := none
  processName : Option Str := none
  layer : Option Layer := none
  deriving DecidableEq, Repr

/-- `wanted is None or value == wanted`. -/
def wants {α : Type*} [DecidableEq α] (wanted : Option α) (value : α) : Bool :=
  wanted.all (fun w => value = w)

def SampleFilter.matchesSample (f : SampleFilter) (sample : UdpSample) : Bool :=
  wants f.srcIp sample.srcIp && wants f.dstIp sample.dstIp && wants f.srcPort sample.srcPort &&
    wants f.dstPort sample.dstPort && wants f.ifname sample.ifname &&
    wants f.processName sample.processName && wants f.layer sample.layer

@[simp] theorem matchesSample_empty (sample : UdpSample) :
    SampleFilter.matchesSample {} sample = true := rfl

/-- No filter leaves every row. -/
theorem filter_matchesSample {f : SampleFilter} (h : f = {}) (rows : List UdpSample) :
    rows.filter f.matchesSample = rows := by
  rw [h]
  exact List.filter_eq_self.mpr fun row _ => matchesSample_empty row

/-- Start of the bucket that contains a clock reading. -/
def bucketStartNs (nowNs bucketMs : ℤ) : ℤ :=
  Int.fdiv nowNs (bucketMs * 1000000) * (bucketMs * 1000000)

/-- The interval a checkpoint reports: the measured one when there was a
checkpoint before and the clock moved by a millisecond or more, else the
configured one. -/
def elapsedMs (bucketMs : ℤ) (previousNs : Option ℤ) (nowNs : ℤ) : ℤ :=
  match previousNs with
  | none => bucketMs
  | some previous =>
    let measured := Int.fdiv (nowNs - previous) 1000000
    if measured > 0 then measured else bucketMs

/-- A clock that moved by at least a millisecond is measured. -/
theorem elapsedMs_measured (bucketMs : ℤ) {previous now : ℤ} (h : previous + 1000000 ≤ now) :
    elapsedMs bucketMs (some previous) now = (now - previous) / 1000000 := by
  have hdiv : Int.fdiv (now - previous) 1000000 = (now - previous) / 1000000 :=
    Int.fdiv_eq_ediv_of_nonneg _ (by decide)
  have hpos : 0 < (now - previous) / 1000000 := by omega
  simp only [elapsedMs, hdiv, gt_iff_lt, hpos, if_true]

/-- Decimal digits. -/
def decimal (n : ℕ) : Str := Nat.toDigits 10 n

/-- `str(ipaddress.IPv4Address(struct.pack("<I", value)))`: the bytes of the
word from the lowest address on, in dotted form. -/
def ipv4FromBpfInt (value : ℤ) : Except PyExc Str :=
  if 0 ≤ value ∧ value < 2 ^ 32 then
    let word := value.toNat
    .ok (decimal (word % 256) ++ '.' :: decimal (word / 256 % 256) ++
      '.' :: decimal (word / 65536 % 256) ++ '.' :: decimal (word / 16777216 % 256))
  else .error .structError

example : ipv4FromBpfInt 0x0A0200C0 = .ok "192.0.2.10".toList := by decide

/-- `ifname_from_index`: the kernel's name of an interface, or the fallback when
there is none. `ifIndexToName` is what `socket.if_indextoname` answers. -/
def ifnameFromIndex (ifIndexToName : ℤ → Except PyExc Str) (ifindex : ℤ) (fallback : Str) :
    Except PyExc Str :=
  match ifIndexToName ifindex with
  | .error (.osError _) => .ok fallback
  | answer => answer

end UdpAnalyzer
