import Mathlib.Data.List.Infix
import Mathlib.Tactic.Common

/-! Searching a text of lines: the leftmost place where a pattern matches (`re.search` with
`re.M`), the places where it may match, and substrings that stand within one line. -/

namespace UdpAnalyzer

variable {α : Type*}

/-! ### The leftmost match -/

/-- The leftmost match. A pattern is told whether a line starts where it stands, and the text
from there on. -/
def searchFrom (pattern : Bool → List Char → Option α) : Bool → List Char → Option α
  | lineStart, [] => pattern lineStart []
  | lineStart, c :: rest =>
    (pattern lineStart (c :: rest)).or (searchFrom pattern (c = '\n') rest)

/-- `re.search(pattern, text, re.M)`. -/
def search (pattern : Bool → List Char → Option α) (text : List Char) : Option α :=
  searchFrom pattern true text

/-- The pattern matches somewhere. -/
inductive Occurs (pattern : Bool → List Char → Option α) : Bool → List Char → α → Prop
  | here {lineStart text found} :
    pattern lineStart text = some found → Occurs pattern lineStart text found
  | later {lineStart c rest found} :
    Occurs pattern (c = '\n') rest found → Occurs pattern lineStart (c :: rest) found

variable {pattern : Bool → List Char → Option α}

theorem occurs_nil {lineStart : Bool} {found : α} :
    Occurs pattern lineStart [] found ↔ pattern lineStart [] = some found :=
  ⟨fun h => by cases h with | here h => exact h, .here⟩

theorem occurs_cons {lineStart : Bool} {c : Char} {rest : List Char} {found : α} :
    Occurs pattern lineStart (c :: rest) found ↔
      pattern lineStart (c :: rest) = some found ∨ Occurs pattern (c = '\n') rest found :=
  ⟨fun h => by cases h with | here h => exact .inl h | later h => exact .inr h,
    fun h => h.elim .here .later⟩

/-- What is found occurs. -/
theorem occurs_of_searchFrom {lineStart : Bool} {text : List Char} {found : α}
    (h : searchFrom pattern lineStart text = some found) : Occurs pattern lineStart text found := by
  induction text generalizing lineStart with
  | nil => exact .here h
  | cons c rest ih =>
    rw [searchFrom, Option.or_eq_some_iff] at h
    rcases h with hhere | ⟨-, hlater⟩
    · exact .here hhere
    · exact .later (ih hlater)

/-- Where the pattern matches somewhere, something is found. -/
theorem searchFrom_ne_none {lineStart : Bool} {text : List Char} {found : α}
    (h : Occurs pattern lineStart text found) : searchFrom pattern lineStart text ≠ none := by
  induction h with
  | @here lineStart text found h =>
    cases text with
    | nil => simp [searchFrom, h]
    | cons c rest => simp [searchFrom, h]
  | later _ ih =>
    rw [searchFrom, Ne, Option.or_eq_none_iff]
    exact fun h => ih h.2

theorem search_eq_none_iff {text : List Char} :
    search pattern text = none ↔ ∀ found, ¬ Occurs pattern true text found := by
  refine ⟨fun h found hfound => searchFrom_ne_none hfound h, fun h => ?_⟩
  cases hs : search pattern text with
  | none => rfl
  | some found => exact absurd (occurs_of_searchFrom hs) (h found)

/-! ### Lines -/

/-- Lines, each but the first after a line feed. -/
def following (lines : List (List Char)) : List Char := lines.flatMap fun line => '\n' :: line

/-- Lines with a line feed between them. -/
def textOfLines : List (List Char) → List Char
  | [] => []
  | line :: rest => line ++ following rest

theorem following_cons (line : List Char) (rest : List (List Char)) :
    following (line :: rest) = '\n' :: textOfLines (line :: rest) := rfl

/-- A pattern that matches no line feed and not at the end of the text. -/
structure WithinLine (pattern : Bool → List Char → Option α) : Prop where
  nil : ∀ lineStart, pattern lineStart [] = none
  newline : ∀ lineStart rest, pattern lineStart ('\n' :: rest) = none

/-- A match begins within the line, or after it. -/
theorem occurs_line_append {line : List Char} (hline : '\n' ∉ line) {lineStart : Bool}
    {rest : List Char} {found : α} :
    Occurs pattern lineStart (line ++ rest) found ↔
      (∃ u v, line = u ++ v ∧ v ≠ [] ∧
        pattern (lineStart && u.isEmpty) (v ++ rest) = some found) ∨
      Occurs pattern (lineStart && line.isEmpty) rest found := by
  induction line generalizing lineStart with
  | nil =>
    rw [List.isEmpty_nil, Bool.and_true]
    refine ⟨.inr, fun h => h.elim ?_ id⟩
    rintro ⟨u, v, huv, hv, -⟩
    exact absurd (List.append_eq_nil_iff.mp huv.symm).2 hv
  | cons c line ih =>
    rw [List.mem_cons, not_or] at hline
    have hc : decide (c = '\n') = false := decide_eq_false (Ne.symm hline.1)
    rw [List.cons_append, occurs_cons, hc, ih hline.2, List.isEmpty_cons, Bool.and_false,
      ← or_assoc]
    refine or_congr_left ⟨fun h => ?_, ?_⟩
    · rcases h with hhere | ⟨u, v, huv, hv, hfound⟩
      · exact ⟨[], c :: line, rfl, List.cons_ne_nil _ _, by simpa using hhere⟩
      · exact ⟨c :: u, v, by rw [huv]; rfl, hv, by simpa using hfound⟩
    · rintro ⟨u, v, huv, hv, hfound⟩
      cases u with
      | nil =>
        rw [List.nil_append] at huv
        rw [← huv] at hfound
        exact .inl (by simpa using hfound)
      | cons d u =>
        obtain ⟨rfl, htail⟩ := List.cons.inj huv
        exact .inr ⟨u, v, htail, hv, by simpa using hfound⟩

/-- A match in a text of lines begins within one of them. -/
theorem occurs_textOfLines (hpattern : WithinLine pattern) {lines : List (List Char)}
    (hlines : ∀ line ∈ lines, '\n' ∉ line) {found : α} :
    Occurs pattern true (textOfLines lines) found ↔
      ∃ front u v back, lines = front ++ (u ++ v) :: back ∧ v ≠ [] ∧
        pattern u.isEmpty (v ++ following back) = some found := by
  induction lines with
  | nil =>
    rw [textOfLines, occurs_nil, hpattern.nil]
    constructor
    · intro h
      cases h
    · rintro ⟨front, u, v, back, h, -⟩
      exact absurd h.symm (List.append_ne_nil_of_right_ne_nil front (List.cons_ne_nil _ _))
  | cons line rest ih =>
    rw [List.forall_mem_cons] at hlines
    rw [textOfLines, occurs_line_append hlines.1]
    constructor
    · rintro (⟨u, v, rfl, hv, hfound⟩ | hrest)
      · exact ⟨[], u, v, rest, rfl, hv, by rwa [Bool.true_and] at hfound⟩
      · cases rest with
        | nil =>
          rw [following, List.flatMap_nil, occurs_nil, hpattern.nil] at hrest
          cases hrest
        | cons next rest =>
          rw [following_cons, occurs_cons, hpattern.newline, decide_eq_true rfl] at hrest
          obtain ⟨front, u, v, back, hsplit, hv, hfound⟩ :=
            (ih hlines.2).mp (hrest.resolve_left fun h => nomatch h)
          exact ⟨line :: front, u, v, back, by rw [hsplit]; rfl, hv, hfound⟩
    · rintro ⟨front, u, v, back, hsplit, hv, hfound⟩
      cases front with
      | nil =>
        obtain ⟨rfl, rfl⟩ := List.cons.inj hsplit
        exact .inl ⟨u, v, rfl, hv, by rwa [Bool.true_and]⟩
      | cons first front =>
        obtain ⟨rfl, hrest⟩ := List.cons.inj hsplit
        have hoccurs := (ih hlines.2).mpr ⟨front, u, v, back, hrest, hv, hfound⟩
        cases rest with
        | nil =>
          exact absurd hrest.symm
            (List.append_ne_nil_of_right_ne_nil front (List.cons_ne_nil _ _))
        | cons next rest =>
          rw [following_cons]
          exact .inr (.later hoccurs)

/-- The rest of a line ends where the next one begins. -/
theorem prefix_append_following {q line : List Char} (hq : '\n' ∉ q) {back : List (List Char)}
    (h : q <+: line ++ following back) : q <+: line := by
  rcases List.prefix_or_prefix_of_prefix h (List.prefix_append line _) with hprefix | ⟨t, rfl⟩
  · exact hprefix
  · have ht := (List.prefix_append_right_inj line).mp h
    cases back with
    | nil =>
      rw [following, List.flatMap_nil, List.prefix_nil] at ht
      rw [ht, List.append_nil]
    | cons next back =>
      cases t with
      | nil => rw [List.append_nil]
      | cons c t =>
        rw [following_cons, List.cons_prefix_cons] at ht
        exact absurd (by simp [ht.1]) hq

theorem occurs_literal {q : List Char} {lineStart : Bool} {text : List Char} :
    Occurs (fun _ text => if q <+: text then some () else none) lineStart text () ↔
      q <:+: text := by
  induction text generalizing lineStart with
  | nil => simp [occurs_nil]
  | cons c rest ih =>
    rw [occurs_cons, ih, List.infix_cons_iff]
    refine or_congr_left ?_
    split_ifs with h <;> simp [h]

/-- A substring without a line feed stands within a line. -/
theorem infix_textOfLines {q : List Char} (hne : q ≠ []) (hq : '\n' ∉ q) {lines : List (List Char)}
    (hlines : ∀ line ∈ lines, '\n' ∉ line) :
    q <:+: textOfLines lines ↔ ∃ line ∈ lines, q <:+: line := by
  have hwithin : WithinLine fun (_ : Bool) text => if q <+: text then some () else none := by
    refine ⟨fun _ => if_neg fun h => hne (List.prefix_nil.mp h), fun _ rest => if_neg fun h => ?_⟩
    cases q with
    | nil => exact hne rfl
    | cons c q =>
      rw [List.cons_prefix_cons] at h
      exact hq (by simp [h.1])
  rw [← @occurs_literal q true, occurs_textOfLines hwithin hlines]
  constructor
  · rintro ⟨front, u, v, back, rfl, -, hfound⟩
    refine ⟨u ++ v, List.mem_append_right _ List.mem_cons_self, ?_⟩
    have hprefix : q <+: v ++ following back := by
      by_contra h
      rw [if_neg h] at hfound
      cases hfound
    exact (prefix_append_following hq hprefix).isInfix.trans (List.suffix_append u v).isInfix
  · rintro ⟨line, hline, u, t, rfl⟩
    obtain ⟨front, back, rfl⟩ := List.append_of_mem hline
    refine ⟨front, u, q ++ t, back, by rw [List.append_assoc], by simp [hne], if_pos ?_⟩
    rw [List.append_assoc]
    exact List.prefix_append q _

/-- A place in the lines of several blocks is a place in the lines of one of them. -/
theorem flatMap_split {β γ : Type*} {f : β → List γ} {blocks : List β} {front back : List γ} {x : γ}
    (h : blocks.flatMap f = front ++ x :: back) : ∃ before block after inner rest,
      blocks = before ++ block :: after ∧ f block = inner ++ x :: rest ∧
        back = rest ++ after.flatMap f := by
  induction blocks generalizing front with
  | nil => exact absurd h.symm (List.append_ne_nil_of_right_ne_nil front (List.cons_ne_nil _ _))
  | cons block blocks ih =>
    rw [List.flatMap_cons] at h
    rcases List.append_eq_append_iff.mp h with ⟨inner, rfl, htail⟩ | ⟨rest, hblock, hback⟩
    · obtain ⟨before, found, after, inner', rest, rfl, hfound, hback⟩ := ih htail
      exact ⟨block :: before, found, after, inner', rest, rfl, hfound, hback⟩
    · cases rest with
      | nil =>
        obtain ⟨before, found, after, inner', rest, rfl, hfound, hback⟩ := @ih [] hback.symm
        exact ⟨block :: before, found, after, inner', rest, rfl, hfound, hback⟩
      | cons y rest =>
        obtain ⟨rfl, htail⟩ := List.cons.inj hback
        exact ⟨[], block, blocks, front, rest, rfl, hblock, htail⟩

/-- A place that is not in the last part of a list is in the first. -/
theorem append_split {γ : Type*} {xs ys front back : List γ} {x : γ}
    (h : xs ++ ys = front ++ x :: back) (hx : x ∉ ys) :
    ∃ rest, xs = front ++ x :: rest ∧ back = rest ++ ys := by
  rcases List.append_eq_append_iff.mp h with ⟨inner, -, rfl⟩ | ⟨rest, hxs, hback⟩
  · exact absurd (List.mem_append_right _ List.mem_cons_self) hx
  · cases rest with
    | nil =>
      rw [List.nil_append] at hback
      exact absurd (hback ▸ List.mem_cons_self) hx
    | cons y rest =>
      obtain ⟨rfl, htail⟩ := List.cons.inj hback
      exact ⟨rest, hxs, htail⟩

/-! ### Between two separators -/

/-- A text is cut at its first separator in one way. -/
theorem append_cons_inj {sep : Char} {a a' b b' : List Char} (ha : sep ∉ a) (ha' : sep ∉ a')
    (h : a ++ sep :: b = a' ++ sep :: b') : a = a' ∧ b = b' := by
  induction a generalizing a' with
  | nil =>
    cases a' with
    | nil => exact ⟨rfl, (List.cons.inj h).2⟩
    | cons c a' =>
      obtain ⟨rfl, -⟩ := List.cons.inj h
      exact absurd List.mem_cons_self ha'
  | cons c a ih =>
    cases a' with
    | nil =>
      obtain ⟨rfl, -⟩ := List.cons.inj h
      exact absurd List.mem_cons_self ha
    | cons c' a' =>
      obtain ⟨rfl, htail⟩ := List.cons.inj h
      rw [List.mem_cons, not_or] at ha ha'
      obtain ⟨rfl, rfl⟩ := ih ha.2 ha'.2 htail
      exact ⟨rfl, rfl⟩

/-- In a line with one quoted name, quotes are found around that name only. -/
theorem quoted_inj {sep : Char} {before name after s front word t : List Char}
    (hbefore : sep ∉ before) (hname : sep ∉ name) (hafter : sep ∉ after) (hword : sep ∉ word)
    (h : before ++ sep :: name ++ sep :: after = s ++ (front ++ sep :: word ++ sep :: t)) :
    before = s ++ front ∧ name = word ∧ after = t := by
  have hcount := congrArg (List.count sep) h
  simp only [List.count_append, List.count_cons_self, List.count_eq_zero_of_not_mem hbefore,
    List.count_eq_zero_of_not_mem hname, List.count_eq_zero_of_not_mem hafter,
    List.count_eq_zero_of_not_mem hword] at hcount
  have hs : sep ∉ s ++ front := by
    rw [← List.count_eq_zero, List.count_append]
    omega
  have hcut : before ++ sep :: (name ++ sep :: after) =
      (s ++ front) ++ sep :: (word ++ sep :: t) := by
    simpa only [List.append_assoc, List.cons_append] using h
  obtain ⟨hfirst, hsecond⟩ := append_cons_inj hbefore hs hcut
  obtain ⟨hnameword, hrest⟩ := append_cons_inj hname hword hsecond
  exact ⟨hfirst, hnameword, hrest⟩

end UdpAnalyzer
