import Mathlib.Data.Int.Notation
import Mathlib.Data.List.Forall2
import Mathlib.Data.Nat.Notation

/-! Decoded JSON, with what a program does to it: looking a member up, turning a
value into an integer, printing it in a message. -/

namespace UdpAnalyzer

/-- A number with a fraction or an exponent. Of a finite one there is what is asked for: its
integral part, whether it is zero, how it is printed. -/
inductive JsonFloat where
  | finite (integral : ℤ) (isZero : Bool) (text : List Char)
  | infinity (negative : Bool)
  | nan

/-- A decoded JSON value; text is a list of characters. -/
inductive Json where
  | null
  | bool (b : Bool)
  | int (n : ℤ)
  | float (x : JsonFloat)
  | str (s : List Char)
  | arr (items : List Json)
  | obj (members : List (List Char × Json))

/-- The value under a name; of several members of one name the last counts. -/
def lookupLast (name : List Char) (members : List (List Char × Json)) : Option Json :=
  members.reverse.lookup name

/-! ### Integers in text -/

def digitValue (c : Char) : Option ℕ :=
  if '0' ≤ c ∧ c ≤ '9' then some (c.toNat - '0'.toNat)
  else if 'a' ≤ c ∧ c ≤ 'z' then some (c.toNat - 'a'.toNat + 10)
  else if 'A' ≤ c ∧ c ≤ 'Z' then some (c.toNat - 'A'.toNat + 10)
  else none

/-- Digits with single underscores between them. `fresh` says that a digit has
to come next. -/
def digitsValue (base : ℕ) : List Char → Bool → ℕ → Option ℕ
  | [], fresh, acc => if fresh then none else some acc
  | c :: rest, fresh, acc =>
    if c = '_' then
      if fresh then none else digitsValue base rest true acc
    else
      match digitValue c with
      | none => none
      | some d => if d < base then digitsValue base rest false (base * acc + d) else none

def isBlank (c : Char) : Bool :=
  c = ' ' || c = '\t' || c = '\n' || c = '\r' || c.toNat = 11 || c.toNat = 12

def dropUnderscore : List Char → List Char
  | '_' :: rest => rest
  | s => s

/-- The digits after an optional `0x`, which an underscore may follow. -/
def magnitude (base : ℕ) (s : List Char) : Option ℕ :=
  match base, s with
  | 16, '0' :: x :: rest =>
    if x = 'x' ∨ x = 'X' then digitsValue 16 (dropUnderscore rest) true 0
    else digitsValue 16 s true 0
  | _, _ => digitsValue base s true 0

/-- `int(text, base)` for ASCII text and base 10 or 16. -/
def parseInt (base : ℕ) (s : List Char) : Option ℤ :=
  match ((s.dropWhile isBlank).reverse.dropWhile isBlank).reverse with
  | '+' :: rest => (magnitude base rest).map Int.ofNat
  | '-' :: rest => (magnitude base rest).map fun n => -Int.ofNat n
  | rest => (magnitude base rest).map Int.ofNat

example : parseInt 16 " -0x_1f".toList = some (-31) := by decide

/-- A digit of a number below sixteen. -/
def hexDigit (n : ℕ) : Char := if n < 10 then Char.ofNat (48 + n) else Char.ofNat (87 + n)

/-- `0x%02x`. -/
def hexByte (b : UInt8) : List Char :=
  ['0', 'x', hexDigit (b.toNat / 16), hexDigit (b.toNat % 16)]

/-- A hexadecimal digit, in either case. -/
def IsHexDigit (c : Char) (n : ℕ) : Prop :=
  "0123456789abcdef".toList[n]? = some c ∨ "0123456789ABCDEF".toList[n]? = some c

/-- A text of hexadecimal digits and the number it stands for. -/
def HexText (s : List Char) (n : ℕ) : Prop :=
  ∃ digits : List ℕ, digits ≠ [] ∧ List.Forall₂ IsHexDigit s digits ∧
    digits.foldl (fun acc d => 16 * acc + d) 0 = n

/-- What the reader makes of a digit. -/
structure ReadsDigit (c : Char) (n : ℕ) : Prop where
  value : digitValue c = some n
  lt : n < 16
  not_underscore : c ≠ '_'
  not_blank : isBlank c = false

theorem IsHexDigit.readsDigit {c : Char} {n : ℕ} (h : IsHexDigit c n) : ReadsDigit c n := by
  have hall : ∀ digits ∈ ["0123456789abcdef".toList, "0123456789ABCDEF".toList], ∀ i < 16,
      (digits[i]?.all fun c => digitValue c = some i ∧ c ≠ '_' ∧ isBlank c = false) = true := by
    decide
  obtain ⟨digits, hmem, hlength, hget⟩ : ∃ digits ∈ ["0123456789abcdef".toList,
      "0123456789ABCDEF".toList], digits.length = 16 ∧ digits[n]? = some c := by
    rcases h with hlower | hupper
    · exact ⟨_, List.mem_cons_self, rfl, hlower⟩
    · exact ⟨_, List.mem_cons_of_mem _ List.mem_cons_self, rfl, hupper⟩
  have hlt : n < 16 := by
    rw [← hlength]
    exact (List.getElem?_eq_some_iff.mp hget).1
  have htest := hall digits hmem n hlt
  rw [hget] at htest
  obtain ⟨hvalue, hunderscore, hblank⟩ := of_decide_eq_true htest
  exact ⟨hvalue, hlt, hunderscore, hblank⟩

theorem dropUnderscore_of_ne {c : Char} (h : c ≠ '_') (rest : List Char) :
    dropUnderscore (c :: rest) = c :: rest := by
  unfold dropUnderscore
  split
  next he => exact absurd (List.cons.inj he).1 h
  next => rfl

theorem digitsValue_cons {base d : ℕ} {c : Char} (hc : c ≠ '_') (hd : digitValue c = some d)
    (hlt : d < base) (rest : List Char) (fresh : Bool) (acc : ℕ) :
    digitsValue base (c :: rest) fresh acc = digitsValue base rest false (base * acc + d) := by
  rw [digitsValue, if_neg hc]
  simp only [hd, if_pos hlt]

theorem digitsValue_hexText {s : List Char} {digits : List ℕ} (h : List.Forall₂ IsHexDigit s digits)
    {fresh : Bool} (hfresh : fresh = true → digits ≠ []) (acc : ℕ) :
    digitsValue 16 s fresh acc = some (digits.foldl (fun acc d => 16 * acc + d) acc) := by
  induction h generalizing fresh acc with
  | nil =>
    cases fresh with
    | true => exact absurd rfl (hfresh rfl)
    | false => rfl
  | cons hdigit _ ih =>
    obtain ⟨hvalue, hlt, hunderscore, -⟩ := hdigit.readsDigit
    rw [digitsValue_cons hunderscore hvalue hlt, ih (fun h => absurd h (by decide))]
    rfl

/-- Text without blanks is not stripped. -/
theorem strip_eq_self {s : List Char} (h : ∀ c ∈ s, isBlank c = false) :
    ((s.dropWhile isBlank).reverse.dropWhile isBlank).reverse = s := by
  have hdrop : ∀ t : List Char, (∀ c ∈ t, isBlank c = false) → t.dropWhile isBlank = t := by
    intro t ht
    cases t with
    | nil => rfl
    | cons c rest => rw [List.dropWhile_cons, ht c List.mem_cons_self]; rfl
  rw [hdrop s h, hdrop s.reverse fun c hc => h c (List.mem_reverse.mp hc), List.reverse_reverse]

theorem not_blank_of_digits {s : List Char} {digits : List ℕ}
    (h : List.Forall₂ IsHexDigit s digits) : ∀ c ∈ s, isBlank c = false := by
  induction h with
  | nil =>
    intro c hc
    exact absurd hc List.not_mem_nil
  | cons hdigit _ ih =>
    rw [List.forall_mem_cons]
    exact ⟨hdigit.readsDigit.not_blank, ih⟩

/-- Reading hexadecimal text gives the number. -/
theorem parseInt_hexText {s : List Char} {n : ℕ} (h : HexText s n) :
    parseInt 16 ('0' :: 'x' :: s) = some (n : ℤ) := by
  obtain ⟨digits, hne, hdigits, rfl⟩ := h
  have hblank : ∀ c ∈ '0' :: 'x' :: s, isBlank c = false := by
    rw [List.forall_mem_cons, List.forall_mem_cons]
    exact ⟨rfl, rfl, not_blank_of_digits hdigits⟩
  have hunderscore : dropUnderscore s = s := by
    cases hdigits with
    | nil => exact absurd rfl hne
    | cons hdigit _ => exact dropUnderscore_of_ne hdigit.readsDigit.not_underscore _
  have hmag : magnitude 16 ('0' :: 'x' :: s) =
      some (digits.foldl (fun acc d => 16 * acc + d) 0) := by
    show digitsValue 16 (dropUnderscore s) true 0 = _
    rw [hunderscore, digitsValue_hexText hdigits fun _ => hne]
  rw [parseInt, strip_eq_self hblank]
  show (magnitude 16 ('0' :: 'x' :: s)).map Int.ofNat = _
  rw [hmag]
  rfl

theorem isHexDigit_hexDigit : ∀ n < 16, IsHexDigit (hexDigit n) n := by
  unfold IsHexDigit
  decide

/-- A printed byte is hexadecimal text of the byte. -/
theorem hexText_hexByte (b : UInt8) :
    HexText [hexDigit (b.toNat / 16), hexDigit (b.toNat % 16)] b.toNat := by
  have hb : b.toNat < 256 := b.toNat_lt
  have hhi := isHexDigit_hexDigit (b.toNat / 16) (by omega)
  have hlo := isHexDigit_hexDigit (b.toNat % 16) (Nat.mod_lt _ (by decide))
  refine ⟨[b.toNat / 16, b.toNat % 16], List.cons_ne_nil _ _, .cons hhi (.cons hlo .nil), ?_⟩
  show 16 * (16 * 0 + b.toNat / 16) + b.toNat % 16 = b.toNat
  omega

end UdpAnalyzer
