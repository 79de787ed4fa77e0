import Mathlib.Data.List.DropRight
import Mathlib.Data.List.Infix
import Mathlib.Data.Nat.Notation

/-! Text as the modelled language treats it: white space, lines, stripping and
splitting, on lists of characters. -/

namespace UdpAnalyzer

instance textLawfulBEq : LawfulBEq (List Char) := inferInstance

/-- `str.isspace` of one character. -/
def isSpace (c : Char) : Bool :=
  let n := c.toNat
  (9 ≤ n && n ≤ 13) || (28 ≤ n && n ≤ 32) || n = 0x85 || n = 0xA0 || n = 0x1680 ||
    (0x2000 ≤ n && n ≤ 0x200A) || n = 0x2028 || n = 0x2029 || n = 0x202F || n = 0x205F || n = 0x3000

/-- The characters `splitlines` ends a line at. -/
def isLineBreak (c : Char) : Bool :=
  let n := c.toNat
  (10 ≤ n && n ≤ 13) || (28 ≤ n && n ≤ 30) || n = 0x85 || n = 0x2028 || n = 0x2029

/-- A property of the characters of a text, from the test of each. -/
theorem forall_mem_of_all {p : Char → Prop} [DecidablePred p] {text : List Char}
    (h : text.all p = true) : ∀ c ∈ text, p c :=
  fun c hc => of_decide_eq_true (List.all_eq_true.mp h c hc)

/-- The lines of a text, the first one continuing `pending`, which is reversed. -/
def splitLinesFrom (pending : List Char) : List Char → List (List Char)
  | [] => if pending = [] then [] else [pending.reverse]
  | '\r' :: '\n' :: rest => pending.reverse :: splitLinesFrom [] rest
  | c :: rest =>
    if isLineBreak c then pending.reverse :: splitLinesFrom [] rest
    else splitLinesFrom (c :: pending) rest

/-- `text.splitlines()`. -/
def splitLines (text : List Char) : List (List Char) := splitLinesFrom [] text

/-- `text.lstrip()`, `text.rstrip()`, `text.strip()`. -/
def lstrip (text : List Char) : List Char := text.dropWhile isSpace

def rstrip (text : List Char) : List Char := text.rdropWhile isSpace

def strip (text : List Char) : List Char := rstrip (lstrip text)

/-- `text.rsplit(sep, 1)[1]`: what follows the last separator. -/
def afterLast (sep : Char) (text : List Char) : Option (List Char) :=
  if sep ∈ text then some (text.rtakeWhile (· ≠ sep)) else none

/-- `text.split(sep, 1)[1]`: what follows the first separator. -/
def afterFirst (sep : Char) (text : List Char) : Option (List Char) :=
  if sep ∈ text then some (text.dropWhile (· ≠ sep)).tail else none

/-- `text.split()`: the words between white space. -/
def words (text : List Char) : List (List Char) := (text.splitOnP isSpace).filter (· ≠ [])

/-- `text.partition(sep)`, if the separator is there. -/
def splitAtFirst (sep : List Char) : List Char → Option (List Char × List Char)
  | [] => if sep = [] then some ([], []) else none
  | c :: rest =>
    if sep.isPrefixOf (c :: rest) then some ([], (c :: rest).drop sep.length)
    else (splitAtFirst sep rest).map fun (before, after) => (c :: before, after)

/-- `text.replace(old, new)` from where `skip` characters are passed over. -/
def replaceFrom (old new : List Char) : ℕ → List Char → List Char
  | _, [] => []
  | skip + 1, _ :: rest => replaceFrom old new skip rest
  | 0, c :: rest =>
    if old.isPrefixOf (c :: rest) then new ++ replaceFrom old new (old.length - 1) rest
    else c :: replaceFrom old new 0 rest

/-- `text.replace(old, new)`, for an `old` that is not empty. -/
def replaceAll (old new text : List Char) : List Char := replaceFrom old new 0 text

/-- What stands between a prefix and a suffix of a text that has both. -/
def between (before after text : List Char) : Option (List Char) :=
  if before.isPrefixOf text && after.isSuffixOf text then
    some ((text.drop before.length).take (text.length - before.length - after.length))
  else none

theorem splitLinesFrom_append {line : List Char} (h : ∀ c ∈ line, isLineBreak c = false)
    (pending rest : List Char) :
    splitLinesFrom pending (line ++ rest) = splitLinesFrom (line.reverse ++ pending) rest := by
  induction line generalizing pending with
  | nil => rfl
  | cons c line ih =>
    have hc := h c List.mem_cons_self
    have hstep : splitLinesFrom pending (c :: (line ++ rest)) =
        splitLinesFrom (c :: pending) (line ++ rest) := by
      have hcr : c ≠ '\r' := fun he => by rw [he] at hc; cases hc
      rw [splitLinesFrom]
      · simp only [hc, Bool.false_eq_true, if_false]
      · exact fun _ he => absurd he hcr
    rw [List.cons_append, hstep, ih (fun d hd => h d (List.mem_cons_of_mem _ hd)),
      List.reverse_cons, List.append_assoc]
    rfl

/-- What follows the first separator. -/
theorem afterFirst_append_cons {sep : Char} {front : List Char} (h : sep ∉ front)
    (rest : List Char) : afterFirst sep (front ++ sep :: rest) = some rest := by
  have hfront : ∀ c ∈ front, (decide (c ≠ sep)) = true := fun c hc => by
    rw [decide_eq_true_eq]
    rintro rfl
    exact h hc
  rw [afterFirst, if_pos (by simp), List.dropWhile_append_of_pos hfront]
  simp

/-- A text without line breaks is one line. -/
theorem splitLines_of_unbroken {line : List Char} (h : ∀ c ∈ line, isLineBreak c = false)
    (hne : line ≠ []) : splitLines line = [line] := by
  have happend := splitLinesFrom_append h [] []
  rw [List.append_nil, List.append_nil] at happend
  rw [splitLines, happend, splitLinesFrom, if_neg (by simpa using hne), List.reverse_reverse]

/-- The line feed at the end of a text starts no further line. -/
theorem splitLines_line {line : List Char} (h : ∀ c ∈ line, isLineBreak c = false) :
    splitLines (line ++ ['\n']) = [line] := by
  rw [splitLines, splitLinesFrom_append h, List.append_nil]
  show [line.reverse.reverse] = _
  rw [List.reverse_reverse]

/-- A line that ends within a text. -/
theorem splitLines_append_cons {line : List Char} (h : ∀ c ∈ line, isLineBreak c = false)
    (rest : List Char) : splitLines (line ++ '\n' :: rest) = line :: splitLines rest := by
  rw [splitLines, splitLinesFrom_append h, List.append_nil]
  show line.reverse.reverse :: splitLinesFrom [] rest = _
  rw [List.reverse_reverse]
  rfl

/-- The lines of a table. -/
theorem splitLines_table {lines : List (List Char)}
    (h : ∀ line ∈ lines, ∀ c ∈ line, isLineBreak c = false) :
    splitLines (lines.flatMap fun line => line ++ ['\n']) = lines := by
  induction lines with
  | nil => rfl
  | cons line rest ih =>
    rw [List.forall_mem_cons] at h
    rw [List.flatMap_cons, List.append_assoc, List.singleton_append, splitLines_append_cons h.1,
      ih h.2]

/-- One character of a text that is not the first of a two-character line end. -/
theorem splitLinesFrom_cons {c : Char} {rest : List Char}
    (h : ¬ (c = '\r' ∧ rest.head? = some '\n')) (pending : List Char) :
    splitLinesFrom pending (c :: rest) =
      if isLineBreak c then pending.reverse :: splitLinesFrom [] rest
      else splitLinesFrom (c :: pending) rest := by
  rw [splitLinesFrom]
  intro rest' hc hrest
  exact h ⟨hc, by rw [hrest]; rfl⟩

/-- A line feed ends a line, whatever follows it. -/
theorem splitLinesFrom_append_newline (pending front back : List Char) :
    splitLinesFrom pending (front ++ '\n' :: back) =
      splitLinesFrom pending (front ++ ['\n']) ++ splitLines back := by
  induction hlength : front.length using Nat.strong_induction_on generalizing pending front with
  | _ n ih =>
    cases front with
    | nil => rfl
    | cons c rest =>
      have hrest : rest.length < n := by
        rw [← hlength]
        exact Nat.lt_succ_self _
      by_cases hcrlf : c = '\r' ∧ rest.head? = some '\n'
      · obtain ⟨rfl, hhead⟩ := hcrlf
        obtain ⟨rest', rfl⟩ : ∃ rest', rest = '\n' :: rest' :=
          ⟨rest.tail, (List.cons_head?_tail hhead).symm⟩
        have htail := ih rest'.length (Nat.lt_of_succ_lt hrest) [] rest' rfl
        show pending.reverse :: splitLinesFrom [] (rest' ++ '\n' :: back) = _
        rw [htail]
        rfl
      · by_cases hlast : c = '\r' ∧ rest = []
        · obtain ⟨rfl, rfl⟩ := hlast
          rfl
        · have hnot : ∀ tail, ¬ (c = '\r' ∧ (rest ++ '\n' :: tail).head? = some '\n') := by
            rintro tail ⟨hc, hhead⟩
            cases rest with
            | nil => exact hlast ⟨hc, rfl⟩
            | cons d rest => exact hcrlf ⟨hc, hhead⟩
          rw [List.cons_append, List.cons_append, splitLinesFrom_cons (hnot back),
            splitLinesFrom_cons (hnot [])]
          split_ifs
          · rw [ih rest.length hrest [] rest rfl]
            rfl
          · exact ih rest.length hrest (c :: pending) rest rfl

/-- The text is empty or ends with a line feed. -/
def EndsLine (text : List Char) : Prop := text = [] ∨ text.getLast? = some '\n'

theorem splitLines_append {front : List Char} (h : EndsLine front) (back : List Char) :
    splitLines (front ++ back) = splitLines front ++ splitLines back := by
  rcases h with rfl | h
  · rfl
  · obtain ⟨front, rfl⟩ := List.getLast?_eq_some_iff.mp h
    rw [List.append_assoc]
    exact splitLinesFrom_append_newline [] front back

/-- No line of a text has a line break in it. -/
theorem splitLinesFrom_unbroken {pending text line : List Char}
    (hpending : ∀ c ∈ pending, isLineBreak c = false) (h : line ∈ splitLinesFrom pending text) :
    ∀ c ∈ line, isLineBreak c = false := by
  induction hlength : text.length using Nat.strong_induction_on generalizing pending text with
  | _ n ih =>
    have hreverse : ∀ c ∈ pending.reverse, isLineBreak c = false :=
      fun c hc => hpending c (List.mem_reverse.mp hc)
    cases text with
    | nil =>
      rw [splitLinesFrom] at h
      split_ifs at h
      · cases h
      · rw [List.mem_singleton.mp h]
        exact hreverse
    | cons c rest =>
      have hrest : rest.length < n := by
        rw [← hlength]
        exact Nat.lt_succ_self _
      by_cases hcrlf : c = '\r' ∧ rest.head? = some '\n'
      · obtain ⟨rfl, hhead⟩ := hcrlf
        obtain ⟨rest', rfl⟩ : ∃ rest', rest = '\n' :: rest' :=
          ⟨rest.tail, (List.cons_head?_tail hhead).symm⟩
        have h : line ∈ pending.reverse :: splitLinesFrom [] rest' := h
        rcases List.mem_cons.mp h with rfl | h
        · exact hreverse
        · exact ih rest'.length (Nat.lt_of_succ_lt hrest) (by simp) h rfl
      · rw [splitLinesFrom_cons hcrlf] at h
        split_ifs at h with hbreak
        · rcases List.mem_cons.mp h with rfl | h
          · exact hreverse
          · exact ih rest.length hrest (by simp) h rfl
        · apply ih rest.length hrest _ h rfl
          rw [List.forall_mem_cons]
          exact ⟨Bool.eq_false_iff.mpr hbreak, hpending⟩

theorem splitLines_unbroken {text line : List Char} (h : line ∈ splitLines text) :
    ∀ c ∈ line, isLineBreak c = false :=
  splitLinesFrom_unbroken (by simp) h

/-- Joining lines and splitting them again may lose an empty line at the end. -/
theorem splitLines_intercalate {lines : List (List Char)}
    (h : ∀ line ∈ lines, ∀ c ∈ line, isLineBreak c = false) :
    splitLines (List.intercalate ['\n'] lines) = lines ∨
      splitLines (List.intercalate ['\n'] lines) ++ [[]] = lines := by
  induction lines with
  | nil => exact .inl rfl
  | cons line rest ih =>
    rw [List.forall_mem_cons] at h
    cases rest with
    | nil =>
      have hline : List.intercalate ['\n'] [line] = line := by simp [List.intercalate]
      rw [hline]
      by_cases hempty : line = []
      · subst hempty
        exact .inr rfl
      · exact .inl (splitLines_of_unbroken h.1 hempty)
    | cons next rest =>
      have hjoin : List.intercalate ['\n'] (line :: next :: rest) =
          line ++ '\n' :: List.intercalate ['\n'] (next :: rest) := by
        simp [List.intercalate]
      rw [hjoin, splitLines_append_cons h.1]
      rcases ih h.2 with ih | ih
      · exact .inl (by rw [ih])
      · exact .inr (by rw [List.cons_append, ih])

end UdpAnalyzer
