import UdpAnalyzer.Lib.Bytes
import UdpAnalyzer.Lib.Json
import UdpAnalyzer.Lib.Layout
import UdpAnalyzer.Models

/-! Reading what `bpftool -j map dump` prints (`raw_bytes` of `ebpf.py` and the
conversions of the parsers): a key or value is a list of bytes in hexadecimal, or
an object of decimal members when the map has type information. -/

namespace UdpAnalyzer

namespace Json

/-- The quotes `repr` chooses: single ones unless the text has them and has no
double ones. -/
def quoteOf (s : Str) : Char := if '\'' ∈ s ∧ '"' ∉ s then '"' else '\''

def escaped (quote c : Char) : Str :=
  if c = quote ∨ c = '\\' then ['\\', c]
  else if c = '\n' then ['\\', 'n']
  else if c = '\r' then ['\\', 'r']
  else if c = '\t' then ['\\', 't']
  else if c.toNat < 32 ∨ c.toNat = 127 then
    ['\\', 'x', hexDigit (c.toNat / 16), hexDigit (c.toNat % 16)]
  else [c]

def reprText (s : Str) : Str := quoteOf s :: s.flatMap (escaped (quoteOf s)) ++ [quoteOf s]

def reprInt (n : ℤ) : Str := if n < 0 then '-' :: decimal n.natAbs else decimal n.natAbs

def separated : List Str → Str
  | [] => []
  | [s] => s
  | s :: rest => s ++ [',', ' '] ++ separated rest

def reprFloat : JsonFloat → Str
  | .finite _ _ text => text
  | .infinity negative => if negative then "-inf".toList else "inf".toList
  | .nan => "nan".toList

mutual
/-- `repr` of a decoded value. -/
def repr : Json → Str
  | null => "None".toList
  | bool b => if b then "True".toList else "False".toList
  | int n => reprInt n
  | float x => reprFloat x
  | str s => reprText s
  | arr items => '[' :: separated (reprItems items) ++ [']']
  | obj members => '\x7b' :: separated (reprMembers members) ++ ['\x7d']

def reprItems : List Json → List Str
  | [] => []
  | item :: rest => repr item :: reprItems rest

def reprMembers : List (Str × Json) → List Str
  | [] => []
  | (name, value) :: rest => (reprText name ++ [':', ' '] ++ repr value) :: reprMembers rest
end

/-- `value.get(name, default)`, where the default is `None` if not given. -/
def getMember (value : Json) (name : String) (default : Json := null) : Except PyExc Json :=
  match value with
  | obj members => .ok ((lookupLast name.toList members).getD default)
  | _ => .error .attributeError

/-- `int(value)`. -/
def toInt : Json → Except PyExc ℤ
  | int n => .ok n
  | bool b => .ok (if b then 1 else 0)
  | float (.finite integral _ _) => .ok integral
  | float (.infinity _) => .error .overflowError
  | float .nan => .error .valueError
  | str s =>
    match parseInt 10 s with
    | some n => .ok n
    | none => .error .valueError
  | _ => .error .typeError

/-- `int(members[name])`. -/
def intMember (members : List (Str × Json)) (name : String) : Except PyExc ℤ :=
  match lookupLast name.toList members with
  | some value => toInt value
  | none => .error .keyError

/-- `int(members.get(name, 0))`. -/
def intMemberOrZero (members : List (Str × Json)) (name : String) : Except PyExc ℤ :=
  match lookupLast name.toList members with
  | some value => toInt value
  | none => .ok 0

end Json

/-! ### Byte lists -/

/-- `int(part, 16) if isinstance(part, str) else int(part)`. -/
def byteNumber : Json → Except PyExc ℤ
  | .str s =>
    match parseInt 16 s with
    | some n => .ok n
    | none => .error .valueError
  | part => part.toInt

/-- An item of `bytes(...)` has to be in the range of a byte. -/
def byteOfInt (n : ℤ) : Except PyExc UInt8 :=
  if 0 ≤ n ∧ n < 256 then .ok (UInt8.ofNat n.toNat) else .error .valueError

def rawByte (part : Json) : Except PyExc UInt8 := byteNumber part >>= byteOfInt

/-- `raw_bytes`. -/
def rawBytes : Json → Except PyExc Bytes
  | .arr parts => parts.mapM rawByte
  | value => .error (.runtimeError ("expected bpftool byte list, got: " ++ String.ofList value.repr))

/-- A byte string as `bpftool` prints it. -/
def hexList (bs : Bytes) : Json := .arr (bs.map fun b => .str (hexByte b))

theorem byteOfInt_toNat (b : UInt8) : byteOfInt b.toNat = .ok b := by
  have hb : b.toNat < 256 := b.toNat_lt
  have hrange : (0 : ℤ) ≤ b.toNat ∧ (b.toNat : ℤ) < 256 := by omega
  rw [byteOfInt, if_pos hrange, Int.toNat_natCast, UInt8.ofNat_toNat]

/-- How a byte may be printed: as a number or as hexadecimal text. -/
inductive PrintsByte (b : UInt8) : Json → Prop
  | int : PrintsByte b (.int b.toNat)
  | hex {s : Str} (h : HexText s b.toNat) : PrintsByte b (.str ('0' :: 'x' :: s))

theorem rawByte_printed {b : UInt8} {part : Json} (h : PrintsByte b part) :
    rawByte part = .ok b := by
  have hnumber : byteNumber part = .ok (b.toNat : ℤ) := by
    cases h with
    | int => rfl
    | hex h => rw [byteNumber, parseInt_hexText h]
  rw [rawByte, hnumber, ok_bind, byteOfInt_toNat]

/-- Reading a byte string back, however its bytes are printed. -/
theorem rawBytes_printed {bs : Bytes} {parts : List Json} (h : List.Forall₂ PrintsByte bs parts) :
    rawBytes (.arr parts) = .ok bs := by
  show parts.mapM rawByte = _
  induction h with
  | nil => rfl
  | cons hbyte _ ih =>
    rw [List.mapM_cons, rawByte_printed hbyte, ih]
    rfl

theorem printsByte_hexByte (b : UInt8) : PrintsByte b (.str (hexByte b)) := .hex (hexText_hexByte b)

@[simp] theorem rawBytes_hexList (bs : Bytes) : rawBytes (hexList bs) = .ok bs := by
  apply rawBytes_printed
  rw [List.forall₂_map_right_iff, List.forall₂_same]
  exact fun b _ => printsByte_hexByte b

/-- What a `for` loop over a decoded value visits. -/
def Json.iterate : Json → Except PyExc (List Json)
  | .arr items => .ok items
  | .obj members => .ok (members.map fun p => .str p.1)
  | .str s => .ok (s.map fun c => .str [c])
  | _ => .error .typeError

/-! ### Structures in a dump -/

/-- How a structure of the kernel may be presented: as the bytes of its memory, with whatever
is in its holes and behind it, or as an object with its members. -/
inductive Presents (members : List Member) : Json → Prop
  | bytes (garbage : ℕ → UInt8) (extra : Bytes) (parts : List Json)
      (h : List.Forall₂ PrintsByte (image garbage members ++ extra) parts) :
      Presents members (.arr parts)
  | dict (object : List (Str × Json))
      (h : ∀ m ∈ members, m.name ≠ "pad" → lookupLast m.name.toList object = some (.int m.value)) :
      Presents members (.obj object)

section
variable {members : List Member} {object : List (Str × Json)}
  (h : ∀ m ∈ members, m.name ≠ "pad" → lookupLast m.name.toList object = some (.int m.value))
include h

theorem intMember_dict :
    ∀ m ∈ members, m.name ≠ "pad" → Json.intMember object m.name = .ok m.value := by
  intro m hm hpad
  rw [Json.intMember, h m hm hpad]
  rfl

theorem intMemberOrZero_dict :
    ∀ m ∈ members, m.name ≠ "pad" → Json.intMemberOrZero object m.name = .ok m.value := by
  intro m hm hpad
  rw [Json.intMemberOrZero, h m hm hpad]
  rfl

end

end UdpAnalyzer
