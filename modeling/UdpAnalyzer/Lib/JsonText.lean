import Mathlib.Data.List.TakeWhile
import Mathlib.Tactic.NormNum
import UdpAnalyzer.Lib.Json
import UdpAnalyzer.Lib.Text

/-! JSON text: the writer, which leaves nothing but printable ASCII, and the reader. What the
writer makes of a value without fractions the reader reads back, whatever characters its texts
have. Characters above the basic plane are written as a pair of surrogates, and the reader joins
such pairs. -/

namespace UdpAnalyzer

/-! ### Writing -/

/-- `\uXXXX`. -/
def unicodeEscape (n : ℕ) : List Char :=
  ['\\', 'u', hexDigit (n / 4096 % 16), hexDigit (n / 256 % 16), hexDigit (n / 16 % 16),
    hexDigit (n % 16)]

/-- A character between quotes. -/
def escapeChar (c : Char) : List Char :=
  if c = '"' then ['\\', '"']
  else if c = '\\' then ['\\', '\\']
  else if c = '\n' then ['\\', 'n']
  else if c = '\r' then ['\\', 'r']
  else if c = '\t' then ['\\', 't']
  else if c.toNat = 12 then ['\\', 'f']
  else if c.toNat = 8 then ['\\', 'b']
  else if 32 ≤ c.toNat ∧ c.toNat ≤ 126 then [c]
  else if c.toNat < 0x10000 then unicodeEscape c.toNat
  else
    unicodeEscape (0xD800 + (c.toNat - 0x10000) / 1024) ++
      unicodeEscape (0xDC00 + (c.toNat - 0x10000) % 1024)

def quoted (s : List Char) : List Char := '"' :: s.flatMap escapeChar ++ ['"']

/-- The digits of an integer, with its sign. -/
def integerText : ℤ → List Char
  | .ofNat n => Nat.toDigits 10 n
  | .negSucc n => '-' :: Nat.toDigits 10 (n + 1)

def JsonFloat.repr : JsonFloat → List Char
  | .finite _ _ text => text
  | .infinity false => "Infinity".toList
  | .infinity true => "-Infinity".toList
  | .nan => "NaN".toList

namespace Json

mutual

/-- `json.dumps(value)`. -/
def dumps : Json → List Char
  | .null => "null".toList
  | .bool true => "true".toList
  | .bool false => "false".toList
  | .int n => integerText n
  | .float x => x.repr
  | .str s => quoted s
  | .arr items => '[' :: dumpsItems items ++ [']']
  | .obj members => '{' :: dumpsMembers members ++ ['}']

def dumpsItems : List Json → List Char
  | [] => []
  | [v] => dumps v
  | v :: rest => dumps v ++ ',' :: ' ' :: dumpsItems rest

def dumpsMembers : List (List Char × Json) → List Char
  | [] => []
  | [(k, v)] => quoted k ++ ':' :: ' ' :: dumps v
  | (k, v) :: rest => quoted k ++ ':' :: ' ' :: dumps v ++ ',' :: ' ' :: dumpsMembers rest

end

/-! ### Reading -/

/-- The white space between tokens. -/
def isWhitespace (c : Char) : Bool := c = ' ' || c = '\t' || c = '\n' || c = '\r'

def skipWhitespace (text : List Char) : List Char := text.dropWhile isWhitespace

/-- What stands between quotes: a character, or the number of a `\u` escape. -/
inductive Unit16 where
  | plain (c : Char)
  | code (n : ℕ)

/-- The value of a hexadecimal digit. -/
def hexValue (c : Char) : Option ℕ := (digitValue c).filter (· < 16)

def hexValue4 (a b c d : Char) : Option ℕ := do
  let a ← hexValue a
  let b ← hexValue b
  let c ← hexValue c
  let d ← hexValue d
  return ((16 * a + b) * 16 + c) * 16 + d

/-- The character after a backslash. -/
def simpleEscape (c : Char) : Option Char :=
  if c = '"' then some '"'
  else if c = '\\' then some '\\'
  else if c = '/' then some '/'
  else if c = 'b' then some (Char.ofNat 8)
  else if c = 'f' then some (Char.ofNat 12)
  else if c = 'n' then some '\n'
  else if c = 'r' then some '\r'
  else if c = 't' then some '\t'
  else none

/-- The text up to the closing quote, and what follows it. -/
def scanUnits : List Char → Option (List Unit16 × List Char)
  | '"' :: rest => some ([], rest)
  | '\\' :: 'u' :: a :: b :: c :: d :: rest => do
    let n ← hexValue4 a b c d
    let (units, rest) ← scanUnits rest
    return (.code n :: units, rest)
  | '\\' :: e :: rest => do
    let c ← simpleEscape e
    let (units, rest) ← scanUnits rest
    return (.plain c :: units, rest)
  | c :: rest =>
    if c.toNat < 32 then none
    else do
      let (units, rest) ← scanUnits rest
      return (.plain c :: units, rest)
  | [] => none

/-- The characters of the units. A surrogate that is not of a pair is none. -/
def joinUnits : List Unit16 → Option (List Char)
  | [] => some []
  | .plain c :: rest => (joinUnits rest).map (c :: ·)
  | .code n :: rest =>
    if 0xD800 ≤ n ∧ n < 0xDC00 then
      match rest with
      | .code m :: rest =>
        if 0xDC00 ≤ m ∧ m < 0xE000 then
          (joinUnits rest).map
            (Char.ofNat (0x10000 + (n - 0xD800) * 1024 + (m - 0xDC00)) :: ·)
        else none
      | _ => none
    else if 0xDC00 ≤ n ∧ n < 0xE000 then none
    else (joinUnits rest).map (Char.ofNat n :: ·)

/-- A text after its opening quote. -/
def scanString (text : List Char) : Option (List Char × List Char) := do
  let (units, rest) ← scanUnits text
  let s ← joinUnits units
  return (s, rest)

/-- The fraction of a number, if there is one. -/
def fraction : List Char → List Char
  | '.' :: rest =>
    let digits := rest.takeWhile Char.isDigit
    if digits = [] then [] else '.' :: digits
  | _ => []

/-- The exponent of a number, if there is one. -/
def exponent : List Char → List Char
  | e :: rest =>
    if e = 'e' ∨ e = 'E' then
      let sign := (rest.take 1).filter fun c => c = '+' || c = '-'
      let digits := (rest.drop sign.length).takeWhile Char.isDigit
      if digits = [] then [] else e :: sign ++ digits
    else []
  | [] => []

/-- The digits of the integral part: a zero stands alone. -/
def integral : List Char → List Char
  | '0' :: _ => ['0']
  | text => text.takeWhile Char.isDigit

section
-- what `float` makes of a number with a fraction or an exponent
variable (floatOf : List Char → JsonFloat)

def scanMagnitude (sign : List Char) (text : List Char) : Option (Json × List Char) :=
  let digits := integral text
  if digits = [] then none
  else
    let rest := text.drop digits.length
    let frac := fraction rest
    let exp := exponent (rest.drop frac.length)
    let value : Json :=
      if frac = [] ∧ exp = [] then
        .int (if sign = [] then Nat.ofDigitChars 10 digits 0 else -Nat.ofDigitChars 10 digits 0)
      else .float (floatOf (sign ++ digits ++ frac ++ exp))
    some (value, rest.drop (frac.length + exp.length))

def scanNumber : List Char → Option (Json × List Char)
  | '-' :: 'I' :: 'n' :: 'f' :: 'i' :: 'n' :: 'i' :: 't' :: 'y' :: rest =>
    some (.float (.infinity true), rest)
  | '-' :: rest => scanMagnitude floatOf ['-'] rest
  | 'N' :: 'a' :: 'N' :: rest => some (.float .nan, rest)
  | 'I' :: 'n' :: 'f' :: 'i' :: 'n' :: 'i' :: 't' :: 'y' :: rest =>
    some (.float (.infinity false), rest)
  | text => scanMagnitude floatOf [] text

mutual

/-- A value at the start of a text, and what follows it. -/
def scanValue : ℕ → List Char → Option (Json × List Char)
  | 0, _ => none
  | fuel + 1, text =>
    match text with
    | '"' :: rest => (scanString rest).map fun (s, rest) => (.str s, rest)
    | '{' :: rest =>
      match skipWhitespace rest with
      | '}' :: rest => some (.obj [], rest)
      | rest => (scanMembers fuel rest).map fun (members, rest) => (.obj members, rest)
    | '[' :: rest =>
      match skipWhitespace rest with
      | ']' :: rest => some (.arr [], rest)
      | rest => (scanItems fuel rest).map fun (items, rest) => (.arr items, rest)
    | 'n' :: 'u' :: 'l' :: 'l' :: rest => some (.null, rest)
    | 't' :: 'r' :: 'u' :: 'e' :: rest => some (.bool true, rest)
    | 'f' :: 'a' :: 'l' :: 's' :: 'e' :: rest => some (.bool false, rest)
    | text => scanNumber floatOf text

/-- The members of an object up to its brace. -/
def scanMembers : ℕ → List Char → Option (List (List Char × Json) × List Char)
  | 0, _ => none
  | fuel + 1, text =>
    match text with
    | '"' :: rest =>
      match scanString rest with
      | none => none
      | some (k, rest) =>
        match skipWhitespace rest with
        | ':' :: rest =>
          match scanValue fuel (skipWhitespace rest) with
          | none => none
          | some (v, rest) =>
            match skipWhitespace rest with
            | '}' :: rest => some ([(k, v)], rest)
            | ',' :: rest =>
              (scanMembers fuel (skipWhitespace rest)).map fun (members, rest) =>
                ((k, v) :: members, rest)
            | _ => none
        | _ => none
    | _ => none

/-- The items of an array up to its bracket. -/
def scanItems : ℕ → List Char → Option (List Json × List Char)
  | 0, _ => none
  | fuel + 1, text =>
    match scanValue fuel text with
    | none => none
    | some (v, rest) =>
      match skipWhitespace rest with
      | ']' :: rest => some ([v], rest)
      | ',' :: rest =>
        (scanItems fuel (skipWhitespace rest)).map fun (items, rest) => (v :: items, rest)
      | _ => none

end

/-- `json.loads(text)`: one value with white space around it. Every step takes a character, so the
length of the text is fuel enough. -/
def loads (text : List Char) : Option Json :=
  match scanValue floatOf (2 * text.length + 2) (skipWhitespace text) with
  | some (v, rest) => if skipWhitespace rest = [] then some v else none
  | none => none

end

/-! ### Texts -/

theorem hexValue_hexDigit : ∀ n < 16, hexValue (hexDigit n) = some n := by decide

theorem hexValue4_hexDigit {n : ℕ} (h : n < 0x10000) :
    hexValue4 (hexDigit (n / 4096 % 16)) (hexDigit (n / 256 % 16)) (hexDigit (n / 16 % 16))
      (hexDigit (n % 16)) = some n := by
  have hlt : ∀ m, m % 16 < 16 := fun m => Nat.mod_lt m (by decide)
  unfold hexValue4
  rw [hexValue_hexDigit _ (hlt _), hexValue_hexDigit _ (hlt _), hexValue_hexDigit _ (hlt _),
    hexValue_hexDigit _ (hlt _)]
  show some _ = some n
  congr 1
  omega

theorem scanUnits_unicodeEscape {n : ℕ} (h : n < 0x10000) (rest : List Char) :
    scanUnits (unicodeEscape n ++ rest) =
      (scanUnits rest).map fun p => (.code n :: p.1, p.2) := by
  show scanUnits ('\\' :: 'u' :: _ :: _ :: _ :: _ :: rest) = _
  rw [scanUnits, hexValue4_hexDigit h]
  cases scanUnits rest <;> rfl

theorem scanUnits_simpleEscape {e c : Char} (he : e ≠ 'u') (h : simpleEscape e = some c)
    (rest : List Char) :
    scanUnits ('\\' :: e :: rest) = (scanUnits rest).map fun p => (.plain c :: p.1, p.2) := by
  rw [scanUnits, h]
  · cases scanUnits rest <;> rfl
  · exact fun _ _ _ _ _ hu => absurd hu he

theorem scanUnits_plain {c : Char} (hquote : c ≠ '"') (hback : c ≠ '\\') (h : 32 ≤ c.toNat)
    (rest : List Char) :
    scanUnits (c :: rest) = (scanUnits rest).map fun p => (.plain c :: p.1, p.2) := by
  rw [scanUnits, if_neg (by omega)]
  · cases scanUnits rest <;> rfl
  · exact hquote
  · exact fun _ _ _ _ _ h => absurd h hback
  · exact fun _ _ h => absurd h hback

/-! What follows a text is read, and its first character is put before it. -/

theorem scanString_eq_some_iff {text s tail : List Char} :
    scanString text = some (s, tail) ↔
      ∃ units, scanUnits text = some (units, tail) ∧ joinUnits units = some s := by
  unfold scanString
  cases hunits : scanUnits text with
  | none => simp
  | some p =>
    cases hjoin : joinUnits p.1 with
    | none =>
      simp only [Option.bind_eq_bind, Option.bind_some, hjoin, Option.bind_none, reduceCtorEq,
        Option.some.injEq, false_iff]
      rintro ⟨units, rfl, hs⟩
      rw [hjoin] at hs
      cases hs
    | some t =>
      simp only [Option.bind_eq_bind, Option.bind_some, hjoin, Option.pure_def, Option.some.injEq,
        Prod.mk.injEq]
      constructor
      · rintro ⟨rfl, rfl⟩
        exact ⟨_, rfl, hjoin⟩
      · rintro ⟨units, rfl, hs⟩
        rw [hjoin] at hs
        exact ⟨Option.some.inj hs, rfl⟩

theorem scanString_of_units {text rest s tail : List Char} {c : Char} {front : List Unit16}
    (hscan : scanUnits text = (scanUnits rest).map fun p => (front ++ p.1, p.2))
    (hjoin : ∀ units, joinUnits (front ++ units) = (joinUnits units).map (c :: ·))
    (h : scanString rest = some (s, tail)) : scanString text = some (c :: s, tail) := by
  obtain ⟨units, hunits, hs⟩ := scanString_eq_some_iff.mp h
  refine scanString_eq_some_iff.mpr ⟨front ++ units, ?_, ?_⟩
  · rw [hscan, hunits]
    rfl
  · rw [hjoin, hs]
    rfl

theorem joinUnits_plain (c : Char) (units : List Unit16) :
    joinUnits ([.plain c] ++ units) = (joinUnits units).map (c :: ·) := by
  rw [List.singleton_append, joinUnits]

/-- A character of the basic plane is no surrogate. -/
theorem joinUnits_code {c : Char} (h : c.toNat < 0x10000) (units : List Unit16) :
    joinUnits ([.code c.toNat] ++ units) = (joinUnits units).map (c :: ·) := by
  have hvalid : c.toNat < 0xD800 ∨ 0xDFFF < c.toNat ∧ c.toNat < 0x110000 := c.valid
  rw [List.singleton_append, joinUnits.eq_def]
  dsimp only
  rw [if_neg (by omega), if_neg (by omega), Char.ofNat_toNat]

theorem joinUnits_pair {c : Char} (h : 0x10000 ≤ c.toNat) (units : List Unit16) :
    joinUnits ([.code (0xD800 + (c.toNat - 0x10000) / 1024),
        .code (0xDC00 + (c.toNat - 0x10000) % 1024)] ++ units) =
      (joinUnits units).map (c :: ·) := by
  have hvalid : c.toNat < 0xD800 ∨ 0xDFFF < c.toNat ∧ c.toNat < 0x110000 := c.valid
  have hjoined : 0x10000 + (0xD800 + (c.toNat - 0x10000) / 1024 - 0xD800) * 1024 +
      (0xDC00 + (c.toNat - 0x10000) % 1024 - 0xDC00) = c.toNat := by omega
  rw [List.cons_append, List.singleton_append, joinUnits, if_pos (by omega), if_pos (by omega),
    hjoined, Char.ofNat_toNat]

theorem scanString_escapeChar (c : Char) {rest s tail : List Char}
    (h : scanString rest = some (s, tail)) :
    scanString (escapeChar c ++ rest) = some (c :: s, tail) := by
  have hsimple : ∀ e : Char, e ≠ 'u' → simpleEscape e = some c →
      scanString ('\\' :: e :: rest) = some (c :: s, tail) := fun e hne he =>
    scanString_of_units (scanUnits_simpleEscape hne he rest) (joinUnits_plain c) h
  unfold escapeChar
  by_cases hquote : c = '"'
  · rw [if_pos hquote]
    exact hsimple '"' (by decide) (by rw [hquote]; rfl)
  by_cases hback : c = '\\'
  · rw [if_neg hquote, if_pos hback]
    exact hsimple '\\' (by decide) (by rw [hback]; rfl)
  rw [if_neg hquote, if_neg hback]
  split_ifs with hn hr ht hf hb hplain hbasic
  · exact hsimple 'n' (by decide) (by rw [hn]; rfl)
  · exact hsimple 'r' (by decide) (by rw [hr]; rfl)
  · exact hsimple 't' (by decide) (by rw [ht]; rfl)
  · exact hsimple 'f' (by decide) (by rw [← Char.ofNat_toNat c, hf]; rfl)
  · exact hsimple 'b' (by decide) (by rw [← Char.ofNat_toNat c, hb]; rfl)
  · rw [List.singleton_append]
    exact scanString_of_units (scanUnits_plain hquote hback hplain.1 rest) (joinUnits_plain c) h
  · exact scanString_of_units (scanUnits_unicodeEscape hbasic rest) (joinUnits_code hbasic) h
  · have hvalid : c.toNat < 0xD800 ∨ 0xDFFF < c.toNat ∧ c.toNat < 0x110000 := c.valid
    refine scanString_of_units ?_ (joinUnits_pair (not_lt.mp hbasic)) h
    rw [List.append_assoc, scanUnits_unicodeEscape (by omega),
      scanUnits_unicodeEscape (by omega), Option.map_map]
    rfl

/-- A quoted text is read back, with what follows it. -/
theorem scanString_quoted (s rest : List Char) :
    scanString (s.flatMap escapeChar ++ '"' :: rest) = some (s, rest) := by
  induction s with
  | nil => rfl
  | cons c s ih =>
    rw [List.flatMap_cons, List.append_assoc]
    exact scanString_escapeChar c ih

/-! ### Numbers -/

/-- A number is read up to here. -/
def EndsNumber (rest : List Char) : Prop :=
  ∀ c ∈ rest.head?, c.isDigit = false ∧ c ≠ '.' ∧ c ≠ 'e' ∧ c ≠ 'E'

theorem fraction_of_ends {rest : List Char} (h : EndsNumber rest) : fraction rest = [] := by
  cases rest with
  | nil => rfl
  | cons c rest =>
    unfold fraction
    split
    next heq => exact absurd (List.cons.inj heq).1 (h c rfl).2.1
    next => rfl

theorem exponent_of_ends {rest : List Char} (h : EndsNumber rest) : exponent rest = [] := by
  cases rest with
  | nil => rfl
  | cons c rest =>
    obtain ⟨-, -, he, hE⟩ := h c rfl
    exact if_neg (not_or.mpr ⟨he, hE⟩)

theorem takeWhile_digits {digits rest : List Char} (hdigits : ∀ c ∈ digits, c.isDigit = true)
    (h : EndsNumber rest) : (digits ++ rest).takeWhile Char.isDigit = digits := by
  have hstop : rest.takeWhile Char.isDigit = [] := by
    cases rest with
    | nil => rfl
    | cons c rest => exact List.takeWhile_cons_of_neg (by rw [(h c rfl).1]; decide)
  rw [List.takeWhile_append_of_pos hdigits, hstop, List.append_nil]

/-- Only zero starts with a zero. -/
theorem head_toDigits_ne_zero : ∀ {n : ℕ}, 0 < n → (Nat.toDigits 10 n).head? ≠ some '0' := by
  intro n
  induction n using Nat.strongRecOn with
  | ind n ih =>
    intro hpos
    rw [Nat.toDigits_eq_if (by decide)]
    split
    next hlt =>
      have hsmall : ∀ n < 10, 0 < n → [Nat.digitChar n].head? ≠ some '0' := by decide
      exact hsmall n hlt hpos
    next hle =>
      have hquot : 0 < n / 10 := Nat.div_pos (not_lt.mp hle) (by decide)
      rw [List.head?_append_of_ne_nil _ Nat.toDigits_ne_nil]
      exact ih (n / 10) (Nat.div_lt_self hpos (by decide)) hquot

theorem integral_toDigits (n : ℕ) {rest : List Char} (h : EndsNumber rest) :
    integral (Nat.toDigits 10 n ++ rest) = Nat.toDigits 10 n := by
  have hdigits : ∀ c ∈ Nat.toDigits 10 n, c.isDigit = true := fun c hc =>
    Nat.isDigit_of_mem_toDigits (by decide) (by decide) hc
  rcases Nat.eq_zero_or_pos n with rfl | hpos
  · rfl
  · unfold integral
    split
    next tail heq =>
      have hhead : (Nat.toDigits 10 n ++ rest).head? = (Nat.toDigits 10 n).head? :=
        List.head?_append_of_ne_nil _ Nat.toDigits_ne_nil
      rw [heq] at hhead
      exact absurd hhead.symm (head_toDigits_ne_zero hpos)
    next => exact takeWhile_digits hdigits h

section
variable (floatOf : List Char → JsonFloat)

theorem scanMagnitude_toDigits (sign : List Char) (n : ℕ) {rest : List Char}
    (h : EndsNumber rest) :
    scanMagnitude floatOf sign (Nat.toDigits 10 n ++ rest) =
      some (.int (if sign = [] then (n : ℤ) else -n), rest) := by
  unfold scanMagnitude
  rw [integral_toDigits n h]
  simp only [Nat.toDigits_ne_nil, if_false, List.drop_left, fraction_of_ends h, List.length_nil,
    List.drop_zero, exponent_of_ends h, and_self, if_true, Nat.ofDigitChars_ten_toDigits,
    Nat.add_zero]

theorem scanNumber_of_isDigit {c : Char} (hc : c.isDigit = true) (rest : List Char) :
    scanNumber floatOf (c :: rest) = scanMagnitude floatOf [] (c :: rest) := by
  have hne : c ≠ '-' ∧ c ≠ 'N' ∧ c ≠ 'I' := by
    refine ⟨?_, ?_, ?_⟩ <;> (rintro rfl; exact absurd hc (by decide))
  unfold scanNumber
  split
  next heq => exact absurd (List.cons.inj heq).1 hne.1
  next heq => exact absurd (List.cons.inj heq).1 hne.1
  next heq => exact absurd (List.cons.inj heq).1 hne.2.1
  next heq => exact absurd (List.cons.inj heq).1 hne.2.2
  next => rfl

theorem scanNumber_minus {c : Char} (hc : c.isDigit = true) (rest : List Char) :
    scanNumber floatOf ('-' :: c :: rest) = scanMagnitude floatOf ['-'] (c :: rest) := by
  have hne : c ≠ 'I' := by
    rintro rfl
    exact absurd hc (by decide)
  unfold scanNumber
  split
  next heq => exact absurd (List.cons.inj (List.cons.inj heq).2).1 hne
  next heq =>
    rw [(List.cons.inj heq).2]
  next heq => exact absurd (List.cons.inj heq).1 (by decide)
  next heq => exact absurd (List.cons.inj heq).1 (by decide)
  next hminus _ _ => exact absurd rfl (hminus _)

theorem scanValue_of_isDigit {c : Char} (hc : c.isDigit = true ∨ c = '-') (fuel : ℕ)
    (rest : List Char) : scanValue floatOf (fuel + 1) (c :: rest) = scanNumber floatOf (c :: rest) := by
  have hne : c ∉ ['"', '{', '[', 'n', 't', 'f'] := by
    rintro hmem
    have hall : ∀ c ∈ ['"', '{', '[', 'n', 't', 'f'], ¬ (c.isDigit = true ∨ c = '-') :=
      forall_mem_of_all (by decide)
    exact hall c hmem hc
  simp only [List.mem_cons, List.not_mem_nil, or_false, not_or] at hne
  unfold scanValue
  split
  next heq => exact absurd (List.cons.inj heq).1 hne.1
  next heq => exact absurd (List.cons.inj heq).1 hne.2.1
  next heq => exact absurd (List.cons.inj heq).1 hne.2.2.1
  next heq => exact absurd (List.cons.inj heq).1 hne.2.2.2.1
  next heq => exact absurd (List.cons.inj heq).1 hne.2.2.2.2.1
  next heq => exact absurd (List.cons.inj heq).1 hne.2.2.2.2.2
  next => rfl

end

end Json

end UdpAnalyzer
