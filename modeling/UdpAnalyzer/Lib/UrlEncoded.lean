import UdpAnalyzer.Lib.JsonText
import UdpAnalyzer.Lib.Url
import UdpAnalyzer.Lib.Utf8

/-! What a request carries: texts in UTF-8, and the parameters of a query in the encoding of
forms. Every text comes back from its bytes, and every list of parameters from its query. -/

namespace UdpAnalyzer

/-! ### UTF-8 -/

/-- The bytes of a character. -/
def utf8Char (c : Char) : List UInt8 :=
  let n := c.toNat
  if n < 0x80 then [.ofNat n]
  else if n < 0x800 then [.ofNat (0xC0 + n / 64), .ofNat (0x80 + n % 64)]
  else if n < 0x10000 then
    [.ofNat (0xE0 + n / 4096), .ofNat (0x80 + n / 64 % 64), .ofNat (0x80 + n % 64)]
  else
    [.ofNat (0xF0 + n / 262144), .ofNat (0x80 + n / 4096 % 64), .ofNat (0x80 + n / 64 % 64),
      .ofNat (0x80 + n % 64)]

/-- `text.encode()`. -/
def encodeUtf8 (text : List Char) : List UInt8 := text.flatMap utf8Char

theorem toNat_ofNat {n : ℕ} (h : n < 256) : (UInt8.ofNat n).toNat = n :=
  UInt8.toNat_ofNat_of_lt' h

/-- A byte that continues a character, which is not its last. -/
theorem decodeFrom_continue {owed low high value n : ℕ} (howed : 2 ≤ owed) (hlow : low ≤ n)
    (hhigh : n ≤ high) (hn : n < 256) (rest : List UInt8) :
    decodeFrom owed low high value (.ofNat n :: rest) =
      decodeFrom (owed - 1) 0x80 0xBF (value * 64 + (n - 0x80)) rest := by
  rw [decodeFrom, toNat_ofNat hn]
  dsimp only
  rw [if_neg (by omega), if_pos ⟨hlow, hhigh⟩, if_neg (by omega)]

theorem decodeFrom_last {low high value n : ℕ} {c : Char} (hlow : low ≤ n) (hhigh : n ≤ high)
    (hn : n < 256) (hc : value * 64 + (n - 0x80) = c.toNat) (rest : List UInt8) :
    decodeFrom 1 low high value (.ofNat n :: rest) = (decodeFrom 0 0 0 0 rest).map (c :: ·) := by
  rw [decodeFrom, toNat_ofNat hn]
  dsimp only
  rw [if_neg (by decide), if_pos ⟨hlow, hhigh⟩, if_pos rfl, hc, Char.ofNat_toNat]

/-- The first of three bytes: no character below the ones of two bytes follows, and no surrogate. -/
theorem decodeFrom_lead_three {m : ℕ} (hm : m < 16) (rest : List UInt8) :
    decodeFrom 0 0 0 0 (.ofNat (0xE0 + m) :: rest) =
      decodeFrom 2 (if m = 0 then 0xA0 else 0x80) (if m = 13 then 0x9F else 0xBF) m rest := by
  rw [decodeFrom, toNat_ofNat (by omega)]
  dsimp only
  rw [if_pos rfl, if_neg (by omega), if_neg (by omega)]
  by_cases hzero : m = 0
  · rw [hzero]
    rfl
  rw [if_neg (by omega), if_neg hzero]
  by_cases hsurrogate : m = 13
  · rw [hsurrogate]
    rfl
  rw [if_neg (by omega), if_pos (by omega), if_neg hsurrogate, Nat.add_sub_cancel_left]

/-- The first of four: none of the others, and none above the last plane. -/
theorem decodeFrom_lead_four {m : ℕ} (hm : m < 5) (rest : List UInt8) :
    decodeFrom 0 0 0 0 (.ofNat (0xF0 + m) :: rest) =
      decodeFrom 3 (if m = 0 then 0x90 else 0x80) (if m = 4 then 0x8F else 0xBF) m rest := by
  rw [decodeFrom, toNat_ofNat (by omega)]
  dsimp only
  rw [if_pos rfl, if_neg (by omega), if_neg (by omega), if_neg (by omega), if_neg (by omega),
    if_neg (by omega)]
  by_cases hzero : m = 0
  · rw [hzero]
    rfl
  rw [if_neg (by omega), if_neg hzero]
  by_cases hlast : m = 4
  · rw [hlast]
    rfl
  rw [if_pos (by omega), if_neg hlast, Nat.add_sub_cancel_left]

theorem decodeFrom_utf8Char (c : Char) (rest : List UInt8) :
    decodeFrom 0 0 0 0 (utf8Char c ++ rest) = (decodeFrom 0 0 0 0 rest).map (c :: ·) := by
  have hvalid : c.toNat < 0xD800 ∨ 0xDFFF < c.toNat ∧ c.toNat < 0x110000 := c.valid
  unfold utf8Char
  dsimp only
  split_ifs with h₁ h₂ h₃
  · rw [List.singleton_append, decodeFrom, toNat_ofNat (by omega)]
    dsimp only
    rw [if_pos rfl, if_pos (by omega), Char.ofNat_toNat]
  · rw [List.cons_append, List.singleton_append, decodeFrom, toNat_ofNat (by omega)]
    dsimp only
    rw [if_pos rfl, if_neg (by omega), if_pos (by omega)]
    exact decodeFrom_last (by omega) (by omega) (by omega) (by omega) rest
  · rw [List.cons_append, List.cons_append, List.singleton_append,
      decodeFrom_lead_three (by omega),
      decodeFrom_continue (by decide) (by split_ifs <;> omega) (by split_ifs <;> omega) (by omega)]
    exact decodeFrom_last (by omega) (by omega) (by omega) (by omega) rest
  · rw [List.cons_append, List.cons_append, List.cons_append, List.singleton_append,
      decodeFrom_lead_four (by omega),
      decodeFrom_continue (by decide) (by split_ifs <;> omega) (by split_ifs <;> omega) (by omega),
      decodeFrom_continue (by decide) (by omega) (by omega) (by omega)]
    exact decodeFrom_last (by omega) (by omega) (by omega) (by omega) rest

theorem decodeUtf8_encodeUtf8 (text : List Char) : decodeUtf8 (encodeUtf8 text) = some text := by
  induction text with
  | nil => rfl
  | cons c text ih =>
    unfold decodeUtf8 encodeUtf8 at ih ⊢
    rw [List.flatMap_cons, decodeFrom_utf8Char, ih]
    rfl

/-! ### Forms -/

/-- A character that stands for itself in a query. -/
def isUnreserved (c : Char) : Bool :=
  isAsciiAlpha c || isAsciiDigit c || c = '_' || c = '.' || c = '-' || c = '~'

def upperHexDigit (n : ℕ) : Char := if n < 10 then Char.ofNat (48 + n) else Char.ofNat (55 + n)

def quoteByte (b : UInt8) : List Char :=
  if b.toNat < 0x80 && isUnreserved (Char.ofNat b.toNat) then [Char.ofNat b.toNat]
  else if b = 0x20 then ['+']
  else ['%', upperHexDigit (b.toNat / 16), upperHexDigit (b.toNat % 16)]

/-- `urllib.parse.quote_plus(text)`. -/
def quotePlus (text : List Char) : List Char := (encodeUtf8 text).flatMap quoteByte

def formParameter (p : List Char × List Char) : List Char := quotePlus p.1 ++ '=' :: quotePlus p.2

/-- `urllib.parse.urlencode(parameters)`. -/
def urlencode (parameters : List (List Char × List Char)) : List Char :=
  ['&'].intercalate (parameters.map formParameter)

/-- The bytes a quoted text stands for; a percent sign before no two digits is itself. -/
def unquoteBytes : List Char → List UInt8
  | '%' :: a :: b :: rest =>
    match Json.hexValue a, Json.hexValue b with
    | some m, some n => .ofNat (16 * m + n) :: unquoteBytes rest
    | _, _ => 0x25 :: unquoteBytes (a :: b :: rest)
  | c :: rest => (if c = '+' then [0x20] else utf8Char c) ++ unquoteBytes rest
  | [] => []

def unquotePlus (text : List Char) : Option (List Char) := decodeUtf8 (unquoteBytes text)

/-- A parameter: its name stands before the first equals sign. -/
def readParameter (text : List Char) : Option (List Char × List Char) := do
  let name ← unquotePlus (before '=' text)
  let value ← unquotePlus (after '=' text)
  return (name, value)

/-- The parameters of a query. -/
def formParameters (query : List Char) : Option (List (List Char × List Char)) :=
  ((query.splitOn '&').filter (· ≠ [])).mapM readParameter

/-! What a byte is quoted as -/

theorem hexValue_upperHexDigit : ∀ n < 16, Json.hexValue (upperHexDigit n) = some n := by decide

theorem isUnreserved_upperHexDigit : ∀ n < 16, isUnreserved (upperHexDigit n) = true := by decide

/-- The characters of a quoted text. -/
def IsQuoted (c : Char) : Prop := isUnreserved c = true ∨ c = '%' ∨ c = '+'

theorem isQuoted_quoteByte (b : UInt8) : ∀ c ∈ quoteByte b, IsQuoted c := by
  have hb : b.toNat < 256 := b.toNat_lt
  unfold quoteByte
  split_ifs with hplain hspace
  · intro c hc
    rw [List.mem_singleton.mp hc]
    exact .inl (Bool.and_eq_true_iff.mp hplain).2
  · intro c hc
    exact .inr (.inr (List.mem_singleton.mp hc))
  · intro c hc
    simp only [List.mem_cons, List.not_mem_nil, or_false] at hc
    rcases hc with rfl | rfl | rfl
    · exact .inr (.inl rfl)
    · exact .inl (isUnreserved_upperHexDigit _ (by omega))
    · exact .inl (isUnreserved_upperHexDigit _ (by omega))

theorem isQuoted_quotePlus (text : List Char) : ∀ c ∈ quotePlus text, IsQuoted c := by
  intro c hc
  obtain ⟨b, -, hb⟩ := List.mem_flatMap.mp hc
  exact isQuoted_quoteByte b c hb

theorem toNat_charOfNat : ∀ n < 0x80, (Char.ofNat n).toNat = n := by decide

theorem unquoteBytes_quoteByte (b : UInt8) (rest : List Char) :
    unquoteBytes (quoteByte b ++ rest) = b :: unquoteBytes rest := by
  have hb : b.toNat < 256 := b.toNat_lt
  unfold quoteByte
  split_ifs with hplain hspace
  · rw [Bool.and_eq_true, decide_eq_true_eq] at hplain
    obtain ⟨hlt, hunreserved⟩ := hplain
    have hpercent : Char.ofNat b.toNat ≠ '%' := by
      intro h
      rw [h] at hunreserved
      exact absurd hunreserved (by decide)
    have hplus : Char.ofNat b.toNat ≠ '+' := by
      intro h
      rw [h] at hunreserved
      exact absurd hunreserved (by decide)
    have hvalue : (Char.ofNat b.toNat).toNat = b.toNat := toNat_charOfNat _ hlt
    have hbyte : utf8Char (Char.ofNat b.toNat) = [b] := by
      unfold utf8Char
      dsimp only
      rw [hvalue, if_pos hlt, UInt8.ofNat_toNat]
    rw [List.singleton_append, unquoteBytes, if_neg hplus, hbyte]
    · rfl
    · exact fun _ _ _ h => absurd h hpercent
  · rw [hspace]
    rfl
  · rw [List.cons_append, List.cons_append, List.cons_append, List.nil_append, unquoteBytes,
      hexValue_upperHexDigit _ (by omega), hexValue_upperHexDigit _ (by omega)]
    dsimp only
    rw [Nat.div_add_mod, UInt8.ofNat_toNat]

theorem unquotePlus_quotePlus (text : List Char) : unquotePlus (quotePlus text) = some text := by
  have hbytes : ∀ bytes : List UInt8, unquoteBytes (bytes.flatMap quoteByte) = bytes := by
    intro bytes
    induction bytes with
    | nil => rfl
    | cons b bytes ih => rw [List.flatMap_cons, unquoteBytes_quoteByte, ih]
  rw [unquotePlus, quotePlus, hbytes, decodeUtf8_encodeUtf8]

/-! ### Queries -/

theorem before_append_cons {sep : Char} {front : List Char} (h : sep ∉ front) (back : List Char) :
    before sep (front ++ sep :: back) = front := by
  have hfront : ∀ c ∈ front, decide (c ≠ sep) = true := fun c hc =>
    decide_eq_true (ne_of_mem_of_not_mem hc h)
  rw [before, List.takeWhile_append_of_pos hfront,
    List.takeWhile_cons_of_neg (by simp), List.append_nil]

theorem after_append_cons {sep : Char} {front : List Char} (h : sep ∉ front) (back : List Char) :
    after sep (front ++ sep :: back) = back := by
  have hfront : ∀ c ∈ front, decide (c ≠ sep) = true := fun c hc =>
    decide_eq_true (ne_of_mem_of_not_mem hc h)
  rw [after, List.dropWhile_append_of_pos hfront, List.dropWhile_cons_of_neg (by simp)]
  rfl

theorem not_mem_quotePlus {sep : Char} (hsep : ¬ IsQuoted sep) (text : List Char) :
    sep ∉ quotePlus text := fun h => hsep (isQuoted_quotePlus text sep h)

instance : DecidablePred IsQuoted := fun c =>
  inferInstanceAs (Decidable (isUnreserved c = true ∨ c = '%' ∨ c = '+'))

theorem not_mem_formParameter {sep : Char} (hsep : ¬ IsQuoted sep) (hequals : sep ≠ '=')
    (p : List Char × List Char) : sep ∉ formParameter p := by
  unfold formParameter
  rw [List.mem_append, List.mem_cons, not_or, not_or]
  exact ⟨not_mem_quotePlus hsep p.1, hequals, not_mem_quotePlus hsep p.2⟩

theorem not_mem_urlencode {sep : Char} (hsep : ¬ IsQuoted sep) (hequals : sep ≠ '=')
    (hand : sep ≠ '&') (parameters : List (List Char × List Char)) :
    sep ∉ urlencode parameters := by
  unfold urlencode
  induction parameters with
  | nil => exact List.not_mem_nil
  | cons p parameters ih =>
    have hp := not_mem_formParameter hsep hequals p
    cases parameters with
    | nil => rwa [List.map_singleton, List.intercalate_singleton]
    | cons q parameters =>
      rw [List.map_cons, List.map_cons, List.intercalate_cons_cons, List.mem_append, List.mem_append,
        not_or, not_or]
      exact ⟨⟨hp, by simpa using hand⟩, ih⟩

theorem readParameter_formParameter (p : List Char × List Char) :
    readParameter (formParameter p) = some p := by
  have hequals := not_mem_quotePlus (by decide : ¬ IsQuoted '=') p.1
  rw [readParameter, formParameter, before_append_cons hequals, after_append_cons hequals,
    unquotePlus_quotePlus, unquotePlus_quotePlus]
  rfl

/-- The ampersands of a query are the ones between its parameters. -/
theorem splitOn_urlencode (parameters : List (List Char × List Char)) :
    ((urlencode parameters).splitOn '&').filter (· ≠ []) = parameters.map formParameter := by
  cases parameters with
  | nil => rfl
  | cons p parameters =>
    have hand : ∀ text ∈ (p :: parameters).map formParameter, '&' ∉ text := by
      intro text htext
      obtain ⟨q, -, rfl⟩ := List.mem_map.mp htext
      exact not_mem_formParameter (by decide) (by decide) q
    have hne : ∀ text ∈ (p :: parameters).map formParameter, decide (text ≠ []) = true := by
      intro text htext
      obtain ⟨q, -, rfl⟩ := List.mem_map.mp htext
      exact decide_eq_true (List.append_ne_nil_of_right_ne_nil _ (List.cons_ne_nil _ _))
    rw [urlencode, List.splitOn_intercalate '&' hand (List.cons_ne_nil _ _)]
    exact List.filter_eq_self.mpr hne

/-- A query gives the parameters it was made of. -/
theorem formParameters_urlencode (parameters : List (List Char × List Char)) :
    formParameters (urlencode parameters) = some parameters := by
  have hread : readParameter ∘ formParameter = fun p => pure (id p) :=
    funext readParameter_formParameter
  rw [formParameters, splitOn_urlencode, List.mapM_map, hread, List.mapM_pure, List.map_id]
  rfl

end UdpAnalyzer
