import Mathlib.Data.Nat.Digits.Defs
import Mathlib.Tactic.Ring
import UdpAnalyzer.Lib.Json
import UdpAnalyzer.Lib.Text

/-! Numbers and columns as `printf` prints them, and what reading them gives back: the digits
of a number, the words of a line of columns, the lines of a table. -/

namespace UdpAnalyzer

/-! ### Numbers -/

/-- A hexadecimal digit in upper case. -/
def upperDigit (n : ℕ) : Char := if n < 10 then Char.ofNat (48 + n) else Char.ofNat (55 + n)

/-- The lowest `width` hexadecimal digits, the highest first: `%0*X`. -/
def upperHex : ℕ → ℕ → List Char
  | 0, _ => []
  | width + 1, n => upperDigit (n / 16 ^ width % 16) :: upperHex width n

theorem digitValue_upperDigit : ∀ n < 16, digitValue (upperDigit n) = some n := by decide

@[simp] theorem length_upperHex (width n : ℕ) : (upperHex width n).length = width := by
  induction width with
  | zero => rfl
  | succ width ih => rw [upperHex, List.length_cons, ih]

/-- A character that is a digit is neither a blank nor a sign. -/
theorem plain_of_digitValue {c : Char} {d : ℕ} (h : digitValue c = some d) :
    c ≠ '_' ∧ isBlank c = false ∧ isSpace c = false ∧ c ≠ '+' ∧ c ≠ '-' := by
  have hrange : (48 ≤ c.toNat ∧ c.toNat ≤ 57) ∨ (97 ≤ c.toNat ∧ c.toNat ≤ 122) ∨
      (65 ≤ c.toNat ∧ c.toNat ≤ 90) := by
    unfold digitValue at h
    simp only [Char.le_def, UInt32.le_iff_toNat_le] at h
    split_ifs at h with h₁ h₂ h₃
    · exact .inl h₁
    · exact .inr (.inl h₂)
    · exact .inr (.inr h₃)
  have hne : ∀ b : Char, ¬ ((48 ≤ b.toNat ∧ b.toNat ≤ 57) ∨ (97 ≤ b.toNat ∧ b.toNat ≤ 122) ∨
      (65 ≤ b.toNat ∧ b.toNat ≤ 90)) → c ≠ b := fun b hb hcb => hb (hcb ▸ hrange)
  have hspace : isSpace c = false := by
    simp only [isSpace, Bool.or_eq_false_iff, Bool.and_eq_false_iff, decide_eq_false_iff_not]
    omega
  have hblank : isBlank c = false := by
    simp only [isBlank, Bool.or_eq_false_iff, decide_eq_false_iff_not]
    refine ⟨⟨⟨⟨⟨?_, ?_⟩, ?_⟩, ?_⟩, by omega⟩, by omega⟩
    all_goals exact hne _ (by decide)
  exact ⟨hne _ (by decide), hblank, hspace, hne _ (by decide), hne _ (by decide)⟩

/-- The characters of a text are digits below a base. -/
def AllDigits (base : ℕ) (s : List Char) : Prop := ∀ c ∈ s, ∃ d < base, digitValue c = some d

theorem allDigits_upperHex (width n : ℕ) : AllDigits 16 (upperHex width n) := by
  induction width with
  | zero => exact fun c hc => absurd hc List.not_mem_nil
  | succ width ih =>
    rw [AllDigits, upperHex, List.forall_mem_cons]
    have hlt : n / 16 ^ width % 16 < 16 := Nat.mod_lt _ (by decide)
    exact ⟨⟨_, hlt, digitValue_upperDigit _ hlt⟩, ih⟩

/-- Digits alone are read without a sign or a prefix. -/
theorem parseInt_of_allDigits {base : ℕ} (hbase : base ≤ 16) {s : List Char} {n : ℕ}
    (hs : AllDigits base s) (h : digitsValue base s true 0 = some n) :
    parseInt base s = some (n : ℤ) := by
  have hmagnitude : magnitude base s = some n := by
    unfold magnitude
    split
    · next x rest =>
      -- an `x` is no digit of the base
      have hx : ¬ (x = 'x' ∨ x = 'X') := by
        obtain ⟨d, hd, hvalue⟩ := hs x (List.mem_cons_of_mem _ List.mem_cons_self)
        rintro (rfl | rfl)
        · have : (33 : ℕ) = d := Option.some.inj hvalue
          omega
        · have : (33 : ℕ) = d := Option.some.inj hvalue
          omega
      rw [if_neg hx]
      exact h
    · exact h
  have hblank : ∀ c ∈ s, isBlank c = false := fun c hc =>
    (plain_of_digitValue (hs c hc).choose_spec.2).2.1
  rw [parseInt, strip_eq_self hblank]
  cases s with
  | nil => cases h
  | cons c rest =>
    obtain ⟨d, -, hd⟩ := hs c List.mem_cons_self
    obtain ⟨-, -, -, hplus, hminus⟩ := plain_of_digitValue hd
    split
    · next he => exact absurd (List.cons.inj he).1 hplus
    · next he => exact absurd (List.cons.inj he).1 hminus
    · rw [hmagnitude]
      rfl

theorem digitsValue_upperHex (width n : ℕ) {fresh : Bool} (hfresh : fresh = true → 0 < width)
    (acc : ℕ) :
    digitsValue 16 (upperHex width n) fresh acc = some (16 ^ width * acc + n % 16 ^ width) := by
  induction width generalizing fresh acc with
  | zero =>
    cases fresh with
    | true => exact absurd (hfresh rfl) (lt_irrefl 0)
    | false => simp [upperHex, digitsValue, Nat.mod_one]
  | succ width ih =>
    have hlt : n / 16 ^ width % 16 < 16 := Nat.mod_lt _ (by decide)
    have hvalue := digitValue_upperDigit _ hlt
    rw [upperHex, digitsValue_cons (plain_of_digitValue hvalue).1 hvalue hlt,
      ih (fun h => absurd h Bool.false_ne_true), Nat.mod_pow_succ]
    congr 1
    ring

/-- Reading printed hexadecimal digits. -/
theorem parseInt_upperHex {width n : ℕ} (hwidth : 0 < width) (h : n < 16 ^ width) :
    parseInt 16 (upperHex width n) = some (n : ℤ) := by
  apply parseInt_of_allDigits le_rfl (allDigits_upperHex width n)
  rw [digitsValue_upperHex width n (fun _ => hwidth), Nat.mod_eq_of_lt h, Nat.mul_zero, Nat.zero_add]

theorem digitValue_of_isDigit {c : Char} (h : c.isDigit = true) :
    digitValue c = some (c.toNat - '0'.toNat) ∧ c.toNat - '0'.toNat < 10 := by
  have hrange : '0' ≤ c ∧ c ≤ '9' := by
    simpa [Char.isDigit, Char.le_def] using h
  rw [digitValue, if_pos hrange]
  refine ⟨rfl, ?_⟩
  have hle : c.toNat ≤ 57 := by
    have := hrange.2
    rwa [Char.le_def, UInt32.le_iff_toNat_le] at this
  show c.toNat - 48 < 10
  omega

theorem allDigits_toDigits (n : ℕ) : AllDigits 10 (Nat.toDigits 10 n) := by
  intro c hc
  have hdigit := Nat.isDigit_of_mem_toDigits (by decide) (by decide) hc
  exact ⟨_, (digitValue_of_isDigit hdigit).2, (digitValue_of_isDigit hdigit).1⟩

theorem digitsValue_ofDigitChars {s : List Char} (h : ∀ c ∈ s, c.isDigit = true) {fresh : Bool}
    (hfresh : fresh = true → s ≠ []) (acc : ℕ) :
    digitsValue 10 s fresh acc = some (Nat.ofDigitChars 10 s acc) := by
  induction s generalizing fresh acc with
  | nil =>
    cases fresh with
    | true => exact absurd rfl (hfresh rfl)
    | false => rfl
  | cons c rest ih =>
    rw [List.forall_mem_cons] at h
    obtain ⟨hvalue, hlt⟩ := digitValue_of_isDigit h.1
    rw [digitsValue_cons (plain_of_digitValue hvalue).1 hvalue hlt,
      ih h.2 (fun h => absurd h Bool.false_ne_true), Nat.ofDigitChars_cons]

/-- Reading printed decimal digits. -/
theorem parseInt_toDigits (n : ℕ) : parseInt 10 (Nat.toDigits 10 n) = some (n : ℤ) := by
  apply parseInt_of_allDigits (by decide) (allDigits_toDigits n)
  rw [digitsValue_ofDigitChars
      (fun c hc => Nat.isDigit_of_mem_toDigits (by decide) (by decide) hc)
      (fun _ => Nat.toDigits_ne_nil), Nat.ofDigitChars_ten_toDigits]

/-! ### Columns -/

/-- A text without white space that is not empty. -/
structure IsWord (s : List Char) : Prop where
  ne_nil : s ≠ []
  plain : ∀ c ∈ s, isSpace c = false

theorem isWord_of_all {s : List Char} (hne : s ≠ [])
    (h : s.all (fun c => isSpace c = false) = true) : IsWord s := ⟨hne, forall_mem_of_all h⟩

theorem AllDigits.isWord {base : ℕ} {s : List Char} (h : AllDigits base s) (hne : s ≠ []) :
    IsWord s :=
  ⟨hne, fun c hc => (plain_of_digitValue (h c hc).choose_spec.2).2.2.1⟩

/-- `%*s`. -/
def padLeft (width : ℕ) (s : List Char) : List Char := List.replicate (width - s.length) ' ' ++ s

/-- `%-*s`. -/
def padRight (width : ℕ) (s : List Char) : List Char := s ++ List.replicate (width - s.length) ' '

/-- Columns with a blank between them. -/
def columnLine : List (List Char) → List Char
  | [] => []
  | [s] => s
  | s :: rest => s ++ ' ' :: columnLine rest

theorem words_cons_of_space {c : Char} (h : isSpace c = true) (rest : List Char) :
    words (c :: rest) = words rest := by
  have hsplit := List.splitOnP_append_cons [] rest h
  rw [List.nil_append, List.splitOnP_nil, List.singleton_append] at hsplit
  rw [words, hsplit]
  rfl

theorem words_of_isWord {s : List Char} (h : IsWord s) : words s = [s] := by
  rw [words, List.splitOnP_eq_singleton h.plain, List.filter_singleton]
  simp [h.ne_nil]

theorem words_append_cons {s : List Char} (h : IsWord s) {c : Char} (hc : isSpace c = true)
    (rest : List Char) : words (s ++ c :: rest) = s :: words rest := by
  rw [words, List.splitOnP_append_cons_of_forall_mem h.plain c hc, List.filter_cons]
  simp [h.ne_nil, words]

theorem words_replicate_append (k : ℕ) (s : List Char) :
    words (List.replicate k ' ' ++ s) = words s := by
  induction k with
  | zero => rfl
  | succ k ih =>
    rw [List.replicate_succ, List.cons_append, words_cons_of_space (by decide)]
    exact ih

theorem words_append_replicate {s : List Char} (h : IsWord s) (k : ℕ) :
    words (s ++ List.replicate k ' ') = [s] := by
  cases k with
  | zero =>
    rw [List.replicate_zero, List.append_nil]
    exact words_of_isWord h
  | succ k =>
    rw [List.replicate_succ, words_append_cons h (by decide)]
    have hblanks := words_replicate_append k []
    rw [List.append_nil] at hblanks
    rw [hblanks]
    rfl

/-- The words of a line of padded columns are the columns. -/
theorem words_columnLine {columns : List (ℕ × List Char)} (h : ∀ c ∈ columns, IsWord c.2) (k : ℕ) :
    words (columnLine (columns.map fun c => padLeft c.1 c.2) ++ List.replicate k ' ') =
      columns.map Prod.snd := by
  induction columns with
  | nil =>
    have hblanks := words_replicate_append k []
    rw [List.append_nil] at hblanks
    exact hblanks
  | cons c rest ih =>
    rw [List.forall_mem_cons] at h
    cases rest with
    | nil =>
      show words ((List.replicate _ ' ' ++ c.2) ++ _) = _
      rw [List.append_assoc, words_replicate_append, words_append_replicate h.1]
      rfl
    | cons d rest =>
      have htail := ih h.2
      show words (((List.replicate _ ' ' ++ c.2) ++ ' ' ::
        columnLine ((d :: rest).map fun c => padLeft c.1 c.2)) ++ _) = _
      rw [List.append_assoc, List.append_assoc, words_replicate_append, List.cons_append,
        words_append_cons h.1 (by decide), htail]
      rfl

/-! ### Lines -/

theorem not_lineBreak_of_not_space {c : Char} (h : isSpace c = false) : isLineBreak c = false := by
  simp only [isSpace, Bool.or_eq_false_iff, Bool.and_eq_false_iff, decide_eq_false_iff_not] at h
  simp only [isLineBreak, Bool.or_eq_false_iff, Bool.and_eq_false_iff, decide_eq_false_iff_not]
  omega

/-- What no column has, the line does not have either, unless it is the blank in between. -/
theorem forall_mem_columnLine {P : Char → Prop} (hblank : P ' ') {columns : List (List Char)}
    (h : ∀ column ∈ columns, ∀ c ∈ column, P c) : ∀ c ∈ columnLine columns, P c := by
  induction columns with
  | nil => exact fun c hc => absurd hc List.not_mem_nil
  | cons column rest ih =>
    rw [List.forall_mem_cons] at h
    cases rest with
    | nil => exact h.1
    | cons next rest =>
      intro c hc
      rcases List.mem_append.mp hc with hc | hc
      · exact h.1 c hc
      · rcases List.mem_cons.mp hc with rfl | hc
        · exact hblank
        · exact ih h.2 c hc

/-- A line of padded columns is unbroken. -/
theorem columnLine_unbroken {columns : List (ℕ × List Char)} (h : ∀ c ∈ columns, IsWord c.2)
    (k : ℕ) : ∀ c ∈ columnLine (columns.map fun c => padLeft c.1 c.2) ++ List.replicate k ' ',
      isLineBreak c = false := by
  have hblanks : ∀ k, ∀ c ∈ List.replicate k ' ', isLineBreak c = false := by
    intro k c hc
    rw [List.eq_of_mem_replicate hc]
    rfl
  have hpadded : ∀ column ∈ columns.map fun c => padLeft c.1 c.2,
      ∀ c ∈ column, isLineBreak c = false := by
    intro column hcolumn c hc
    obtain ⟨p, hp, rfl⟩ := List.mem_map.mp hcolumn
    rcases List.mem_append.mp hc with hc | hc
    · exact hblanks _ c hc
    · exact not_lineBreak_of_not_space ((h p hp).plain c hc)
  intro c hc
  rcases List.mem_append.mp hc with hc | hc
  · exact @forall_mem_columnLine (fun c => isLineBreak c = false) rfl _ hpadded c hc
  · exact hblanks k c hc

end UdpAnalyzer
