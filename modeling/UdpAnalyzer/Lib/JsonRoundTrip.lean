import UdpAnalyzer.Lib.JsonText

/-! Values without fractions are read back as they were written, from text that is printable. -/

namespace UdpAnalyzer

namespace Json

section
variable (floatOf : List Char → JsonFloat)

/-! ### Values -/

/-- What is written for a value is read as the value, whatever follows it. -/
structure Reads (v : Json) : Prop where
  head : ∃ c tail, dumps v = c :: tail ∧ isWhitespace c = false ∧ c ≠ ']'
  scan : ∀ (rest : List Char) (fuel : ℕ), EndsNumber rest → 2 * (dumps v).length ≤ fuel →
    scanValue floatOf fuel (dumps v ++ rest) = some (v, rest)

theorem exists_fuel {c : Char} {text : List Char} {fuel : ℕ} (h : 2 * (c :: text).length ≤ fuel) :
    ∃ m, fuel = m + 1 := by
  rw [List.length_cons] at h
  exact ⟨fuel - 1, by omega⟩

theorem reads_integer (n : ℤ) : Reads floatOf (.int n) := by
  have hdigits : ∀ m : ℕ, ∃ c tail, Nat.toDigits 10 m = c :: tail ∧ c.isDigit = true := by
    intro m
    obtain ⟨c, tail, h⟩ := List.exists_cons_of_ne_nil (Nat.toDigits_ne_nil (n := m) (b := 10))
    have hmem : c ∈ Nat.toDigits 10 m := by
      rw [h]
      exact List.mem_cons_self
    exact ⟨c, tail, h, Nat.isDigit_of_mem_toDigits (by decide) (by decide) hmem⟩
  have hplain : ∀ c : Char, c.isDigit = true ∨ c = '-' → isWhitespace c = false ∧ c ≠ ']' := by
    intro c hc
    constructor
    · rw [Bool.eq_false_iff]
      intro hwhite
      simp only [isWhitespace, Bool.or_eq_true, decide_eq_true_eq] at hwhite
      rcases hwhite with ((rfl | rfl) | rfl) | rfl <;> exact absurd hc (by decide)
    · rintro rfl
      exact absurd hc (by decide)
  cases n with
  | ofNat n =>
    obtain ⟨c, tail, htext, hc⟩ := hdigits n
    constructor
    · exact ⟨c, tail, htext, hplain c (.inl hc)⟩
    · intro rest fuel hends hfuel
      have hscan := scanMagnitude_toDigits floatOf [] n hends
      rw [show dumps (.int (.ofNat n)) = Nat.toDigits 10 n by rw [dumps, integerText]] at hfuel ⊢
      rw [htext] at hfuel hscan ⊢
      obtain ⟨fuel, rfl⟩ := exists_fuel hfuel
      rw [List.cons_append, scanValue_of_isDigit floatOf (.inl hc), scanNumber_of_isDigit floatOf hc]
      exact hscan
  | negSucc n =>
    obtain ⟨c, tail, htext, hc⟩ := hdigits (n + 1)
    constructor
    · exact ⟨'-', c :: tail, by rw [dumps, integerText, htext], by decide⟩
    · intro rest fuel hends hfuel
      have hscan := scanMagnitude_toDigits floatOf ['-'] (n + 1) hends
      rw [show dumps (.int (.negSucc n)) = '-' :: Nat.toDigits 10 (n + 1) by
        rw [dumps, integerText]] at hfuel ⊢
      obtain ⟨fuel, rfl⟩ := exists_fuel hfuel
      rw [htext] at hscan ⊢
      rw [List.cons_append, List.cons_append, scanValue_of_isDigit floatOf (.inr rfl),
        scanNumber_minus floatOf hc]
      exact hscan

theorem reads_text (s : List Char) : Reads floatOf (.str s) := by
  constructor
  · exact ⟨'"', _, by rw [dumps, quoted]; rfl, by decide⟩
  · intro rest fuel _ hfuel
    rw [dumps, quoted] at hfuel ⊢
    obtain ⟨fuel, rfl⟩ := exists_fuel hfuel
    rw [List.cons_append, List.cons_append, List.append_assoc, List.singleton_append, scanValue,
      scanString_quoted]
    rfl

theorem skipWhitespace_of_head {c : Char} {text : List Char} (h : isWhitespace c = false) :
    skipWhitespace (c :: text) = c :: text :=
  List.dropWhile_cons_of_neg (by rw [h]; decide)

variable {floatOf}

theorem Reads.skipWhitespace {v : Json} (h : Reads floatOf v) (rest : List Char) :
    skipWhitespace (dumps v ++ rest) = dumps v ++ rest := by
  obtain ⟨c, tail, htext, hc, -⟩ := h.head
  rw [htext]
  exact skipWhitespace_of_head hc

theorem endsNumber_cons {c : Char} (h : c = ',' ∨ c = ']' ∨ c = '}') (rest : List Char) :
    EndsNumber (c :: rest) := by
  rintro d hd
  cases hd
  rcases h with rfl | rfl | rfl <;> decide

theorem dumps_length_pos {v : Json} (h : Reads floatOf v) : 0 < (dumps v).length := by
  obtain ⟨c, tail, htext, -⟩ := h.head
  rw [htext]
  exact Nat.succ_pos _

theorem dumpsItems_cons (v : Json) {items : List Json} (h : items ≠ []) :
    dumpsItems (v :: items) = dumps v ++ ',' :: ' ' :: dumpsItems items := by
  rw [dumpsItems]
  exact h

theorem dumpsItems_head {v : Json} (items : List Json) : ∃ tail, dumpsItems (v :: items) =
    dumps v ++ tail := by
  cases items with
  | nil => exact ⟨[], by rw [dumpsItems, List.append_nil]⟩
  | cons w items => exact ⟨_, dumpsItems_cons v (List.cons_ne_nil _ _)⟩

theorem skipWhitespace_space (text : List Char) :
    Json.skipWhitespace (' ' :: text) = Json.skipWhitespace text := rfl

theorem scanItems_last {v : Json} (h : Reads floatOf v) {fuel : ℕ}
    (hfuel : 2 * (dumps v).length ≤ fuel) (rest : List Char) :
    scanItems floatOf (fuel + 1) (dumps v ++ ']' :: rest) = some ([v], rest) := by
  rw [scanItems, h.scan _ _ (endsNumber_cons (.inr (.inl rfl)) _) hfuel]
  rfl

theorem scanItems_comma {v : Json} (h : Reads floatOf v) {fuel : ℕ}
    (hfuel : 2 * (dumps v).length ≤ fuel) (text : List Char) :
    scanItems floatOf (fuel + 1) (dumps v ++ ',' :: text) =
      (scanItems floatOf fuel (Json.skipWhitespace text)).map fun p => (v :: p.1, p.2) := by
  rw [scanItems, h.scan _ _ (endsNumber_cons (.inl rfl) _) hfuel]
  rfl

/-- The items of an array are read one after the other. -/
theorem scanItems_dumpsItems {items : List Json} (hne : items ≠ [])
    (h : ∀ v ∈ items, Reads floatOf v) (rest : List Char) :
    ∀ fuel, 2 * (dumpsItems items).length + 1 ≤ fuel →
      scanItems floatOf fuel (dumpsItems items ++ ']' :: rest) = some (items, rest) := by
  induction items with
  | nil => exact absurd rfl hne
  | cons v items ih =>
    intro fuel hfuel
    obtain ⟨fuel, rfl⟩ : ∃ m, fuel = m + 1 := ⟨fuel - 1, by omega⟩
    have hv := h v List.mem_cons_self
    cases items with
    | nil =>
      rw [dumpsItems] at hfuel ⊢
      exact scanItems_last hv (by omega) rest
    | cons w items =>
      have hpos := dumps_length_pos hv
      rw [dumpsItems_cons v (List.cons_ne_nil w items)] at hfuel ⊢
      rw [List.length_append, List.length_cons, List.length_cons] at hfuel
      rw [List.append_assoc, List.cons_append, List.cons_append, scanItems_comma hv (by omega),
        skipWhitespace_space]
      obtain ⟨tail, htail⟩ := dumpsItems_head (v := w) items
      have hw := h w (List.mem_cons_of_mem _ List.mem_cons_self)
      have hskip : Json.skipWhitespace (dumpsItems (w :: items) ++ ']' :: rest) =
          dumpsItems (w :: items) ++ ']' :: rest := by
        rw [htail, List.append_assoc]
        exact hw.skipWhitespace _
      have hrest := ih (List.cons_ne_nil _ _) (fun u hu => h u (List.mem_cons_of_mem _ hu)) fuel
        (by omega)
      rw [hskip, hrest]
      rfl

/-! The members of an object are read as the items of an array are, each after its name. -/

theorem dumpsMembers_cons (k : List Char) (v : Json) {members : List (List Char × Json)}
    (h : members ≠ []) : dumpsMembers ((k, v) :: members) =
      quoted k ++ ':' :: ' ' :: dumps v ++ ',' :: ' ' :: dumpsMembers members := by
  rw [dumpsMembers]
  exact h

/-- A member is read up to its value. -/
theorem scanString_member (k : List Char) (v : Json) (text : List Char) : ∃ rest,
    quoted k ++ ':' :: ' ' :: dumps v ++ text = '"' :: rest ∧
      scanString rest = some (k, ':' :: ' ' :: (dumps v ++ text)) := by
  refine ⟨k.flatMap escapeChar ++ '"' :: ':' :: ' ' :: (dumps v ++ text), ?_,
    scanString_quoted k _⟩
  simp [quoted]

theorem scanMembers_last (k : List Char) {v : Json} (h : Reads floatOf v) {fuel : ℕ}
    (hfuel : 2 * (dumps v).length ≤ fuel) (rest : List Char) :
    scanMembers floatOf (fuel + 1) (quoted k ++ ':' :: ' ' :: dumps v ++ '}' :: rest) =
      some ([(k, v)], rest) := by
  obtain ⟨text, htext, hscan⟩ := scanString_member k v ('}' :: rest)
  have hskip : Json.skipWhitespace (':' :: ' ' :: (dumps v ++ '}' :: rest)) =
      ':' :: ' ' :: (dumps v ++ '}' :: rest) := rfl
  have hvalue := h.scan ('}' :: rest) fuel (endsNumber_cons (.inr (.inr rfl)) rest) hfuel
  rw [htext, scanMembers, hscan]
  simp only [hskip, skipWhitespace_space, h.skipWhitespace, hvalue]
  rfl

theorem scanMembers_comma (k : List Char) {v : Json} (h : Reads floatOf v) {fuel : ℕ}
    (hfuel : 2 * (dumps v).length ≤ fuel) (rest : List Char) :
    scanMembers floatOf (fuel + 1) (quoted k ++ ':' :: ' ' :: dumps v ++ ',' :: rest) =
      (scanMembers floatOf fuel (Json.skipWhitespace rest)).map
        fun p => ((k, v) :: p.1, p.2) := by
  obtain ⟨text, htext, hscan⟩ := scanString_member k v (',' :: rest)
  have hskip : Json.skipWhitespace (':' :: ' ' :: (dumps v ++ ',' :: rest)) =
      ':' :: ' ' :: (dumps v ++ ',' :: rest) := rfl
  have hvalue := h.scan (',' :: rest) fuel (endsNumber_cons (.inl rfl) rest) hfuel
  rw [htext, scanMembers, hscan]
  simp only [hskip, skipWhitespace_space, h.skipWhitespace, hvalue]
  rfl

theorem dumpsMembers_head (m : List Char × Json) (members : List (List Char × Json)) :
    ∃ tail, dumpsMembers (m :: members) = '"' :: tail := by
  obtain ⟨k, v⟩ := m
  cases members with
  | nil => exact ⟨_, by rw [dumpsMembers, quoted]; rfl⟩
  | cons n members => exact ⟨_, by rw [dumpsMembers_cons k v (List.cons_ne_nil _ _), quoted]; rfl⟩

theorem scanMembers_dumpsMembers {members : List (List Char × Json)} (hne : members ≠ [])
    (h : ∀ m ∈ members, Reads floatOf m.2) (rest : List Char) :
    ∀ fuel, 2 * (dumpsMembers members).length + 1 ≤ fuel →
      scanMembers floatOf fuel (dumpsMembers members ++ '}' :: rest) = some (members, rest) := by
  induction members with
  | nil => exact absurd rfl hne
  | cons m members ih =>
    intro fuel hfuel
    obtain ⟨fuel, rfl⟩ : ∃ m, fuel = m + 1 := ⟨fuel - 1, by omega⟩
    obtain ⟨k, v⟩ := m
    have hv : Reads floatOf v := h (k, v) List.mem_cons_self
    cases members with
    | nil =>
      have htext : dumpsMembers [(k, v)] = quoted k ++ ':' :: ' ' :: dumps v := by rw [dumpsMembers]
      rw [htext] at hfuel ⊢
      rw [List.length_append, List.length_cons, List.length_cons] at hfuel
      exact scanMembers_last k hv (by omega) rest
    | cons n members =>
      rw [dumpsMembers_cons k v (List.cons_ne_nil n members)] at hfuel ⊢
      simp only [List.length_append, List.length_cons] at hfuel
      have hrest := ih (List.cons_ne_nil _ _) (fun u hu => h u (List.mem_cons_of_mem _ hu)) fuel
        (by omega)
      obtain ⟨tail, htail⟩ := dumpsMembers_head n members
      have hskip : Json.skipWhitespace (dumpsMembers (n :: members) ++ '}' :: rest) =
          dumpsMembers (n :: members) ++ '}' :: rest := by
        rw [htail]
        rfl
      rw [List.append_assoc, List.cons_append, List.cons_append, scanMembers_comma k hv (by omega),
        skipWhitespace_space, hskip, hrest]
      rfl

theorem scanValue_array {c : Char} (hspace : isWhitespace c = false) (hc : c ≠ ']') (fuel : ℕ)
    (text : List Char) : scanValue floatOf (fuel + 1) ('[' :: c :: text) =
      (scanItems floatOf fuel (c :: text)).map fun p => (.arr p.1, p.2) := by
  rw [scanValue, skipWhitespace_of_head hspace]
  split
  next heq => exact absurd (List.cons.inj heq).1 hc
  next => rfl

theorem scanValue_object (fuel : ℕ) (text : List Char) :
    scanValue floatOf (fuel + 1) ('{' :: '"' :: text) =
      (scanMembers floatOf fuel ('"' :: text)).map fun p => (.obj p.1, p.2) := by
  rw [scanValue, skipWhitespace_of_head (by decide)]
  rfl

/-- A value in which no number has a fraction or an exponent. -/
inductive FloatFree : Json → Prop where
  | null : FloatFree .null
  | bool (b : Bool) : FloatFree (.bool b)
  | int (n : ℤ) : FloatFree (.int n)
  | str (s : List Char) : FloatFree (.str s)
  | arr {items : List Json} (h : ∀ v ∈ items, FloatFree v) : FloatFree (.arr items)
  | obj {members : List (List Char × Json)} (h : ∀ m ∈ members, FloatFree m.2) :
      FloatFree (.obj members)

theorem FloatFree.reads {v : Json} (h : FloatFree v) : Reads floatOf v := by
  induction h with
  | null =>
    refine ⟨⟨'n', _, by rw [dumps]; rfl, by decide⟩, fun rest fuel _ hfuel => ?_⟩
    rw [dumps] at hfuel ⊢
    obtain ⟨fuel, rfl⟩ := exists_fuel hfuel
    rfl
  | bool b =>
    cases b with
    | true =>
      refine ⟨⟨'t', _, by rw [dumps]; rfl, by decide⟩, fun rest fuel _ hfuel => ?_⟩
      rw [dumps] at hfuel ⊢
      obtain ⟨fuel, rfl⟩ := exists_fuel hfuel
      rfl
    | false =>
      refine ⟨⟨'f', _, by rw [dumps]; rfl, by decide⟩, fun rest fuel _ hfuel => ?_⟩
      rw [dumps] at hfuel ⊢
      obtain ⟨fuel, rfl⟩ := exists_fuel hfuel
      rfl
  | int n => exact reads_integer floatOf n
  | str s => exact reads_text floatOf s
  | @arr items _ ih =>
    refine ⟨⟨'[', _, by rw [dumps]; rfl, by decide⟩, fun rest fuel _ hfuel => ?_⟩
    rw [dumps, List.cons_append] at hfuel ⊢
    simp only [List.length_cons, List.length_append] at hfuel
    obtain ⟨fuel, rfl⟩ : ∃ m, fuel = m + 1 := ⟨fuel - 1, by omega⟩
    rw [List.cons_append, List.append_assoc, List.singleton_append]
    cases items with
    | nil => rfl
    | cons v items =>
      have hscan := scanItems_dumpsItems (List.cons_ne_nil v items) ih rest fuel (by omega)
      obtain ⟨c, front, hfront, hspace, hc⟩ := (ih v List.mem_cons_self).head
      obtain ⟨tail, htail⟩ := dumpsItems_head (v := v) items
      rw [htail, hfront, List.cons_append, List.cons_append] at hscan ⊢
      rw [scanValue_array hspace hc, hscan]
      rfl
  | @obj members _ ih =>
    refine ⟨⟨'{', _, by rw [dumps]; rfl, by decide⟩, fun rest fuel _ hfuel => ?_⟩
    rw [dumps, List.cons_append] at hfuel ⊢
    simp only [List.length_cons, List.length_append] at hfuel
    obtain ⟨fuel, rfl⟩ : ∃ m, fuel = m + 1 := ⟨fuel - 1, by omega⟩
    rw [List.cons_append, List.append_assoc, List.singleton_append]
    cases members with
    | nil => rfl
    | cons m members =>
      have hscan := scanMembers_dumpsMembers (List.cons_ne_nil m members) ih rest fuel (by omega)
      obtain ⟨tail, htail⟩ := dumpsMembers_head m members
      rw [htail, List.cons_append] at hscan ⊢
      rw [scanValue_object, hscan]
      rfl

variable (floatOf) in
/-- What is written for a value without fractions is read as the value. -/
theorem loads_dumps {v : Json} (h : FloatFree v) : loads floatOf (dumps v) = some v := by
  have hreads : Reads floatOf v := h.reads
  have hskip := hreads.skipWhitespace []
  have hscan := hreads.scan [] (2 * (dumps v).length + 2) (fun c hc => nomatch hc) (by omega)
  rw [List.append_nil] at hskip hscan
  rw [loads, hskip, hscan]
  rfl

/-! ### Objects without spaces -/

variable {v : Json} {fuel : ℕ}

theorem scanString_compact (k text : List Char) :
    ∃ rest, quoted k ++ text = '"' :: rest ∧ scanString rest = some (k, text) := by
  refine ⟨k.flatMap escapeChar ++ '"' :: text, ?_, scanString_quoted k text⟩
  simp [quoted]

theorem scanMembers_compact_last (k : List Char) (h : Reads floatOf v)
    (hfuel : 2 * (dumps v).length ≤ fuel) (rest : List Char) :
    scanMembers floatOf (fuel + 1) (quoted k ++ ':' :: (dumps v ++ '}' :: rest)) =
      some ([(k, v)], rest) := by
  obtain ⟨text, htext, hscan⟩ := scanString_compact k (':' :: (dumps v ++ '}' :: rest))
  have hskip : Json.skipWhitespace (':' :: (dumps v ++ '}' :: rest)) =
      ':' :: (dumps v ++ '}' :: rest) := rfl
  have hvalue := h.scan ('}' :: rest) fuel (endsNumber_cons (.inr (.inr rfl)) rest) hfuel
  rw [htext, scanMembers, hscan]
  simp only [hskip, h.skipWhitespace, hvalue]
  rfl

theorem scanMembers_compact_comma (k : List Char) (h : Reads floatOf v)
    (hfuel : 2 * (dumps v).length ≤ fuel) (rest : List Char) :
    scanMembers floatOf (fuel + 1) (quoted k ++ ':' :: (dumps v ++ ',' :: rest)) =
      (scanMembers floatOf fuel (Json.skipWhitespace rest)).map
        fun p => ((k, v) :: p.1, p.2) := by
  obtain ⟨text, htext, hscan⟩ := scanString_compact k (':' :: (dumps v ++ ',' :: rest))
  have hskip : Json.skipWhitespace (':' :: (dumps v ++ ',' :: rest)) =
      ':' :: (dumps v ++ ',' :: rest) := rfl
  have hvalue := h.scan (',' :: rest) fuel (endsNumber_cons (.inl rfl) rest) hfuel
  rw [htext, scanMembers, hscan]
  simp only [hskip, h.skipWhitespace, hvalue]
  rfl

/-- A line that holds an object is read as the object. -/
theorem loads_object_line {body : List Char} {members : List (List Char × Json)}
    (hquote : body.head? = some '"')
    (h : ∀ fuel, 2 * body.length ≤ fuel → scanMembers floatOf fuel body = some (members, ['\n'])) :
    loads floatOf ('{' :: body) = some (.obj members) := by
  obtain ⟨text, rfl⟩ : ∃ text, body = '"' :: text := ⟨body.tail, List.eq_cons_of_mem_head? hquote⟩
  have hskip : Json.skipWhitespace ('{' :: '"' :: text) = '{' :: '"' :: text := rfl
  have hscan := h (2 * ('{' :: '"' :: text).length + 1) (by simp only [List.length_cons]; omega)
  rw [loads, hskip, scanValue_object, hscan]
  rfl

end

/-! ### What is written is printable -/

/-- A character from the blank to the tilde. -/
def IsPrintable (c : Char) : Prop := 32 ≤ c.toNat ∧ c.toNat ≤ 126

instance : DecidablePred IsPrintable := fun c =>
  inferInstanceAs (Decidable (32 ≤ c.toNat ∧ c.toNat ≤ 126))

theorem isPrintable_hexDigit (n : ℕ) : IsPrintable (hexDigit (n % 16)) := by
  have hall : ∀ n < 16, IsPrintable (hexDigit n) := by decide
  exact hall _ (Nat.mod_lt n (by decide))

theorem isPrintable_unicodeEscape (n : ℕ) : ∀ c ∈ unicodeEscape n, IsPrintable c := by
  intro c hc
  simp only [unicodeEscape, List.mem_cons, List.not_mem_nil, or_false] at hc
  rcases hc with rfl | rfl | rfl | rfl | rfl | rfl
  · decide
  · decide
  all_goals exact isPrintable_hexDigit _

theorem isPrintable_escapeChar (c : Char) : ∀ d ∈ escapeChar c, IsPrintable d := by
  unfold escapeChar
  split_ifs with _ _ _ _ _ _ _ hplain _
  iterate 7 exact forall_mem_of_all (by decide)
  · rintro d hd
    rw [List.mem_singleton.mp hd]
    exact hplain
  · exact isPrintable_unicodeEscape _
  · intro d hd
    rcases List.mem_append.mp hd with hd | hd
    · exact isPrintable_unicodeEscape _ d hd
    · exact isPrintable_unicodeEscape _ d hd

theorem isPrintable_quoted (s : List Char) : ∀ c ∈ quoted s, IsPrintable c := by
  intro c hc
  rcases List.mem_cons.mp hc with rfl | hc
  · decide
  rcases List.mem_append.mp hc with hc | hc
  · obtain ⟨d, -, hd⟩ := List.mem_flatMap.mp hc
    exact isPrintable_escapeChar d c hd
  · rw [List.mem_singleton.mp hc]
    decide

theorem isPrintable_of_isDigit {c : Char} (h : c.isDigit = true) : IsPrintable c := by
  simp only [Char.isDigit, Bool.and_eq_true, decide_eq_true_eq, UInt32.le_iff_toNat_le] at h
  obtain ⟨hlow, hhigh⟩ := h
  change 48 ≤ c.toNat at hlow
  change c.toNat ≤ 57 at hhigh
  exact ⟨by omega, by omega⟩

theorem isPrintable_integerText (n : ℤ) : ∀ c ∈ integerText n, IsPrintable c := by
  have hdigits : ∀ m : ℕ, ∀ c ∈ Nat.toDigits 10 m, IsPrintable c := fun m c hc =>
    isPrintable_of_isDigit (Nat.isDigit_of_mem_toDigits (by decide) (by decide) hc)
  cases n with
  | ofNat n => exact hdigits n
  | negSucc n =>
    intro c hc
    rcases List.mem_cons.mp hc with rfl | hc
    · decide
    · exact hdigits (n + 1) c hc

theorem isPrintable_dumpsItems {items : List Json} (h : ∀ v ∈ items, ∀ c ∈ dumps v, IsPrintable c) :
    ∀ c ∈ dumpsItems items, IsPrintable c := by
  induction items with
  | nil => exact fun c hc => nomatch hc
  | cons v items ih =>
    have hv := h v List.mem_cons_self
    cases items with
    | nil => rwa [dumpsItems]
    | cons w items =>
      intro c hc
      rw [dumpsItems_cons v (List.cons_ne_nil _ _)] at hc
      rcases List.mem_append.mp hc with hc | hc
      · exact hv c hc
      simp only [List.mem_cons] at hc
      rcases hc with rfl | rfl | hc
      · decide
      · decide
      · exact ih (fun u hu => h u (List.mem_cons_of_mem _ hu)) c hc

theorem isPrintable_member (k : List Char) {v : Json} (h : ∀ c ∈ dumps v, IsPrintable c) :
    ∀ c ∈ quoted k ++ ':' :: ' ' :: dumps v, IsPrintable c := by
  intro c hc
  rcases List.mem_append.mp hc with hc | hc
  · exact isPrintable_quoted k c hc
  simp only [List.mem_cons] at hc
  rcases hc with rfl | rfl | hc
  · decide
  · decide
  · exact h c hc

theorem isPrintable_dumpsMembers {members : List (List Char × Json)}
    (h : ∀ m ∈ members, ∀ c ∈ dumps m.2, IsPrintable c) :
    ∀ c ∈ dumpsMembers members, IsPrintable c := by
  induction members with
  | nil => exact fun c hc => nomatch hc
  | cons m members ih =>
    obtain ⟨k, v⟩ := m
    have hv := isPrintable_member k (h (k, v) List.mem_cons_self)
    cases members with
    | nil => rwa [dumpsMembers]
    | cons n members =>
      intro c hc
      rw [dumpsMembers_cons k v (List.cons_ne_nil _ _)] at hc
      rcases List.mem_append.mp hc with hc | hc
      · exact hv c hc
      simp only [List.mem_cons] at hc
      rcases hc with rfl | rfl | hc
      · decide
      · decide
      · exact ih (fun u hu => h u (List.mem_cons_of_mem _ hu)) c hc

/-- What is written has no line breaks, and every character of it is one byte. -/
theorem FloatFree.isPrintable {v : Json} (h : FloatFree v) : ∀ c ∈ dumps v, IsPrintable c := by
  induction h with
  | null =>
    rw [dumps]
    exact forall_mem_of_all (by decide)
  | bool b =>
    cases b <;> (rw [dumps]; exact forall_mem_of_all (by decide))
  | int n => exact isPrintable_integerText n
  | str s => exact isPrintable_quoted s
  | arr _ ih =>
    intro c hc
    rw [dumps, List.cons_append] at hc
    simp only [List.mem_cons, List.mem_append, List.not_mem_nil, or_false] at hc
    rcases hc with rfl | hc | rfl
    · decide
    · exact isPrintable_dumpsItems ih c hc
    · decide
  | obj _ ih =>
    intro c hc
    rw [dumps, List.cons_append] at hc
    simp only [List.mem_cons, List.mem_append, List.not_mem_nil, or_false] at hc
    rcases hc with rfl | hc | rfl
    · decide
    · exact isPrintable_dumpsMembers ih c hc
    · decide

end Json

end UdpAnalyzer
