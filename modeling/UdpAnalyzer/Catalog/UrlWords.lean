import Mathlib.Algebra.Order.BigOperators.Group.List
import UdpAnalyzer.Catalog.Robustness
import UdpAnalyzer.Lib.Printf

/-! URLs in words of their own. White space ends a URL, so the URLs of a text are those of its
words; and an assignment of a URL that stands as a word in a line is found wherever it stands,
within quotes and behind a backslash as well. -/

namespace UdpAnalyzer

/-! ### White space ends a URL -/

/-- A prefix without a character ends before it. -/
theorem prefix_of_prefix_append_cons {α : Type} {l x y : List α} {c : α} (hc : c ∉ l)
    (h : l <+: x ++ c :: y) : l <+: x := by
  induction x generalizing l with
  | nil =>
    rcases List.prefix_cons_iff.mp h with rfl | ⟨t, rfl, -⟩
    · exact List.prefix_rfl
    · exact absurd List.mem_cons_self hc
  | cons a x ih =>
    rcases List.prefix_cons_iff.mp h with rfl | ⟨t, rfl, ht⟩
    · exact List.nil_prefix
    · rw [List.cons_prefix_cons]
      exact ⟨rfl, ih (fun hmem => hc (List.mem_cons_of_mem _ hmem)) ht⟩

theorem takeWhile_append_stop {α : Type} {p : α → Bool} {c : α} (hc : p c = false)
    (x y : List α) : (x ++ c :: y).takeWhile p = x.takeWhile p := by
  induction x with
  | nil => rw [List.nil_append, List.takeWhile_cons, hc]; rfl
  | cons a x ih => rw [List.cons_append, List.takeWhile_cons, List.takeWhile_cons, ih]

theorem firstM_congr {α β : Type} {f g : α → Option β} {l : List α} (h : ∀ a ∈ l, f a = g a) :
    l.firstM f = l.firstM g := by
  induction l with
  | nil => rfl
  | cons a rest ih =>
    rw [List.forall_mem_cons] at h
    show (f a <|> rest.firstM f) = (g a <|> rest.firstM g)
    rw [h.1, ih h.2]

theorem urlScheme_plain : ∀ scheme ∈ urlSchemes, ∀ c ∈ scheme ++ "://".toList, isSpace c = false := by
  intro scheme hscheme
  simp only [urlSchemes, List.mem_cons, List.not_mem_nil, or_false] at hscheme
  rcases hscheme with rfl | rfl | rfl | rfl
  all_goals exact forall_mem_of_all (by decide)

theorem urlWith_append {c : Char} (hc : isSpace c = true) {scheme : Str}
    (hscheme : scheme ∈ urlSchemes) (x y : Str) :
    urlWith scheme (x ++ c :: y) = urlWith scheme x := by
  have hplain : c ∉ scheme ++ "://".toList := fun hmem => by
    rw [urlScheme_plain scheme hscheme c hmem] at hc
    cases hc
  have hstop : isUrlChar c = false := by simp [isUrlChar, hc]
  unfold urlWith
  dsimp only
  by_cases hstart : scheme ++ "://".toList <+: x
  · obtain ⟨rest, rfl⟩ := hstart
    have hbefore : (scheme ++ "://".toList).isPrefixOf
        (scheme ++ "://".toList ++ rest ++ c :: y) = true := by
      rw [List.isPrefixOf_iff_prefix, List.append_assoc]
      exact List.prefix_append _ _
    have hbefore' : (scheme ++ "://".toList).isPrefixOf (scheme ++ "://".toList ++ rest) = true := by
      rw [List.isPrefixOf_iff_prefix]
      exact List.prefix_append _ _
    rw [hbefore, hbefore', List.append_assoc _ rest, List.drop_left, List.drop_left,
      takeWhile_append_stop hstop]
  · have hstart' : ¬ scheme ++ "://".toList <+: x ++ c :: y :=
      fun h => hstart (prefix_of_prefix_append_cons hplain h)
    rw [← List.isPrefixOf_iff_prefix, Bool.not_eq_true] at hstart hstart'
    rw [hstart, hstart', Bool.false_and, Bool.false_and, if_neg Bool.false_ne_true,
      if_neg Bool.false_ne_true]

theorem urlAt_append {c : Char} (hc : isSpace c = true) (x y : Str) :
    urlAt (x ++ c :: y) = urlAt x :=
  firstM_congr fun _ hscheme => urlWith_append hc hscheme x y

theorem urlAt_length {text url : Str} (h : urlAt text = some url) : url.length ≤ text.length := by
  obtain ⟨scheme, -, hurl⟩ := firstM_mem h
  unfold urlWith at hurl
  dsimp only at hurl
  split_ifs at hurl with hstart
  rw [Bool.and_eq_true, List.isPrefixOf_iff_prefix] at hstart
  obtain ⟨rest, rfl⟩ := hstart.1
  rw [List.drop_left, Option.some.injEq] at hurl
  rw [← hurl]
  exact ((List.takeWhile_sublist _).append_left _).length_le

/-- The URLs of a text are found between white space. -/
theorem findUrlsFrom_append {c : Char} (hc : isSpace c = true) {x : Str} {skip : ℕ}
    (hskip : skip ≤ x.length) (y : Str) :
    findUrlsFrom skip (x ++ c :: y) = findUrlsFrom skip x ++ findUrls y := by
  induction x generalizing skip with
  | nil =>
    rw [Nat.le_zero.mp hskip]
    have hnone : urlAt (c :: y) = none := (urlAt_append hc [] y).trans (by decide)
    have hstep : findUrlsFrom 0 (c :: y) = findUrlsFrom 0 y := by
      rw [findUrlsFrom, hnone]
    rw [List.nil_append, hstep]
    rfl
  | cons a x ih =>
    cases skip with
    | succ skip => exact ih (Nat.le_of_succ_le_succ hskip)
    | zero =>
      have hsame : urlAt (a :: (x ++ c :: y)) = urlAt (a :: x) := urlAt_append hc (a :: x) y
      rw [List.cons_append, findUrlsFrom, findUrlsFrom, hsame]
      cases hurl : urlAt (a :: x) with
      | none => exact ih (Nat.zero_le _)
      | some url =>
        have hlength := urlAt_length hurl
        rw [List.length_cons] at hlength
        dsimp only
        rw [ih (by omega)]
        rfl

theorem findUrls_append {c : Char} (hc : isSpace c = true) (x y : Str) :
    findUrls (x ++ c :: y) = findUrls x ++ findUrls y :=
  findUrlsFrom_append hc (Nat.zero_le _) y

/-! ### A word of its own -/

/-- A text after which a word starts: it is empty or ends with a blank. -/
def BeforeWord (text : Str) : Prop := text = [] ∨ ∃ before, text = before ++ [' ']

/-- A text before which a word ends: it is empty or starts with a blank. -/
def AfterWord (text : Str) : Prop := text = [] ∨ ∃ after, text = ' ' :: after

/-- A word stands in a text, with nothing or a blank on each side. -/
def HasWord (word text : Str) : Prop :=
  ∃ before after, text = before ++ word ++ after ∧ BeforeWord before ∧ AfterWord after

theorem HasWord.self (word : Str) : HasWord word word :=
  ⟨[], [], by rw [List.nil_append, List.append_nil], .inl rfl, .inl rfl⟩

theorem BeforeWord.of_append {front text : Str} (h : BeforeWord (front ++ text)) :
    BeforeWord text := by
  rcases List.eq_nil_or_concat' text with rfl | ⟨before, c, rfl⟩
  · exact .inl rfl
  · rcases h with h | ⟨before', h⟩
    · simp at h
    · rw [← List.append_assoc] at h
      rw [(List.append_inj' h rfl).2]
      exact .inr ⟨before, rfl⟩

/-! ### Words of an assignment -/

/-- A character that stands for itself wherever `shlex` is, but behind a backslash. -/
def isPlain (c : Char) : Bool := !isShlexSpace c && c ∉ ['\\', '\'', '"']

/-- The quotes a word stands in are quotes. -/
def ShlexState.Quotes : ShlexState → Prop
  | .quote q => q = '\'' ∨ q = '"'
  | _ => True

/-- Where a word is being read. -/
def ShlexState.InWord : ShlexState → Prop
  | .word => True
  | .quote q => q = '\'' ∨ q = '"'
  | _ => False

/-- What one character does: the word so far grows, or it is finished. -/
theorem shlexFrom_cons {state : ShlexState} (hquotes : state.Quotes) (quoted : Bool) (token : Str)
    (c : Char) (rest : Str) :
    (∃ state' quoted' token', shlexFrom state quoted token (c :: rest) =
        shlexFrom state' quoted' token' rest ∧ state'.Quotes ∧
      (state ≠ .space → token ≠ [] → state' ≠ .space ∧ token <:+ token')) ∨
    shlexFrom state quoted token (c :: rest) =
      (shlexFrom .space false [] rest).map (token.reverse :: ·) := by
  have hgrown : ∀ d : Char, token <:+ d :: token := fun d => List.suffix_cons _ _
  have hsame : token <:+ token := List.suffix_rfl
  have hquote : ∀ q, q = '\'' ∨ q = '"' → (ShlexState.quote q).Quotes := by
    exact fun q hq => hq
  cases state with
  | space =>
    rw [shlexFrom]
    split_ifs with _ _ hq
    · exact .inl ⟨_, _, _, rfl, trivial, fun h => absurd rfl h⟩
    · exact .inl ⟨_, _, _, rfl, trivial, fun h => absurd rfl h⟩
    · exact .inl ⟨_, _, _, rfl, hquote c hq, fun h => absurd rfl h⟩
    · exact .inl ⟨_, _, _, rfl, trivial, fun h => absurd rfl h⟩
  | word =>
    rw [shlexFrom]
    split_ifs with _ hempty hq
    · exact .inl ⟨_, _, _, rfl, trivial, fun _ h => absurd hempty.1 h⟩
    · exact .inr rfl
    · exact .inl ⟨_, _, _, rfl, hquote c hq, fun _ _ => ⟨nofun, hsame⟩⟩
    · exact .inl ⟨_, _, _, rfl, trivial, fun _ _ => ⟨nofun, hsame⟩⟩
    · exact .inl ⟨_, _, _, rfl, trivial, fun _ _ => ⟨nofun, hgrown c⟩⟩
  | quote q =>
    rw [shlexFrom]
    split_ifs
    · exact .inl ⟨_, _, _, rfl, trivial, fun _ _ => ⟨nofun, hsame⟩⟩
    · exact .inl ⟨_, _, _, rfl, trivial, fun _ _ => ⟨nofun, hsame⟩⟩
    · exact .inl ⟨_, _, _, rfl, hquotes, fun _ _ => ⟨nofun, hgrown c⟩⟩
  | escape inQuotes =>
    cases inQuotes with
    | false =>
      rw [shlexFrom]
      exact .inl ⟨_, _, _, rfl, trivial, fun _ _ => ⟨nofun, hgrown c⟩⟩
    | true =>
      have hdouble := hquote '"' (.inr rfl)
      rw [shlexFrom]
      split_ifs
      · exact .inl ⟨_, _, _, rfl, hdouble, fun _ _ => ⟨nofun, hgrown c⟩⟩
      · exact .inl ⟨_, _, _, rfl, hdouble,
          fun _ _ => ⟨nofun, (hgrown '\\').trans (List.suffix_cons _ _)⟩⟩

/-- The word so far is the start of one of the words. -/
theorem shlexFrom_keeps {state : ShlexState} {quoted : Bool} {token text : Str} {parts : List Str}
    (hquotes : state.Quotes) (hstate : state ≠ .space) (htoken : token ≠ [])
    (h : shlexFrom state quoted token text = some parts) :
    ∃ part ∈ parts, token.reverse <+: part := by
  induction text generalizing state quoted token parts with
  | nil =>
    cases state with
    | space => exact absurd rfl hstate
    | word =>
      rw [shlexFrom, if_neg (fun hempty => htoken hempty.1), Option.some.injEq] at h
      rw [← h]
      exact ⟨_, List.mem_singleton_self _, List.prefix_rfl⟩
    | quote q => cases h
    | escape inQuotes => cases inQuotes <;> cases h
  | cons c rest ih =>
    rcases shlexFrom_cons hquotes quoted token c rest with
      ⟨state', quoted', token', hstep, hquotes', hgrow⟩ | hstep
    · obtain ⟨hstate', hsuffix⟩ := hgrow hstate htoken
      have htoken' : token' ≠ [] := fun hempty => by
        rw [hempty, List.suffix_nil] at hsuffix
        exact htoken hsuffix
      obtain ⟨part, hpart, hstart⟩ := ih hquotes' hstate' htoken' (hstep.symm.trans h)
      exact ⟨part, hpart, (List.reverse_prefix.mpr hsuffix).trans hstart⟩
    · rw [hstep, Option.map_eq_some_iff] at h
      obtain ⟨others, -, rfl⟩ := h
      exact ⟨_, List.mem_cons_self, List.prefix_rfl⟩

/-- Plain characters are added to the word they stand in. -/
theorem shlexFrom_plain {state : ShlexState} (hstate : state.InWord) {word : Str}
    (hplain : ∀ c ∈ word, isPlain c = true) (quoted : Bool) (token rest : Str) :
    ∃ quoted', shlexFrom state quoted token (word ++ rest) =
      shlexFrom state quoted' (word.reverse ++ token) rest := by
  induction word generalizing quoted token with
  | nil => exact ⟨quoted, rfl⟩
  | cons c word ih =>
    rw [List.forall_mem_cons] at hplain
    have hc : isShlexSpace c = false ∧ c ≠ '\\' ∧ c ≠ '\'' ∧ c ≠ '"' := by
      simpa [isPlain] using hplain.1
    obtain ⟨hspace, hbackslash, hsingle, hdouble⟩ := hc
    have hstep : ∃ quoted', shlexFrom state quoted token (c :: (word ++ rest)) =
        shlexFrom state quoted' (c :: token) (word ++ rest) := by
      cases state with
      | word =>
        refine ⟨quoted, ?_⟩
        simp [shlexFrom, hspace, hbackslash, hsingle, hdouble]
      | quote q =>
        have hq : c ≠ q := fun hcq => by
          have hstate : q = '\'' ∨ q = '"' := hstate
          rw [← hcq] at hstate
          exact hstate.elim hsingle hdouble
        refine ⟨true, ?_⟩
        simp [shlexFrom, hq, hbackslash]
      | space => exact hstate.elim
      | escape inQuotes => exact hstate.elim
    obtain ⟨quoted', hstep⟩ := hstep
    obtain ⟨quoted'', hword⟩ := ih hplain.2 quoted' (c :: token)
    refine ⟨quoted'', ?_⟩
    rw [List.cons_append, hstep, hword, List.reverse_cons, List.append_assoc]
    rfl

/-- After a blank a word starts, or a blank is the last character of the word so far. -/
theorem shlexFrom_blank {state : ShlexState} (hquotes : state.Quotes) (quoted : Bool)
    (token rest : Str) :
    (∃ quoted' token', shlexFrom state quoted token (' ' :: rest) =
        shlexFrom .space quoted' token' rest) ∨
    (shlexFrom state quoted token (' ' :: rest) =
      (shlexFrom .space false [] rest).map (token.reverse :: ·)) ∨
    ∃ state' quoted' token', shlexFrom state quoted token (' ' :: rest) =
      shlexFrom state' quoted' (' ' :: token') rest ∧ state'.InWord := by
  have hspace : isShlexSpace ' ' = true := rfl
  cases state with
  | space =>
    rw [shlexFrom, if_pos hspace]
    exact .inl ⟨_, _, rfl⟩
  | word =>
    rw [shlexFrom, if_pos hspace]
    split_ifs
    · exact .inl ⟨_, _, rfl⟩
    · exact .inr (.inl rfl)
  | quote q =>
    have hq : ' ' ≠ q := by
      rintro rfl
      have hnot : ' ' = '\'' ∨ ' ' = '"' := hquotes
      exact absurd hnot (by decide)
    rw [shlexFrom, if_neg hq, if_neg (by simp)]
    exact .inr (.inr ⟨_, _, _, rfl, hquotes⟩)
  | escape inQuotes =>
    cases inQuotes with
    | false =>
      rw [shlexFrom]
      exact .inr (.inr ⟨_, _, _, rfl, trivial⟩)
    | true =>
      rw [shlexFrom, if_neg (by decide)]
      exact .inr (.inr ⟨_, _, _, rfl, .inr rfl⟩)

/-- A plain word that starts where a word is read after a blank. -/
theorem shlexFrom_inWord {state : ShlexState} (hstate : state.InWord) {word : Str}
    (hplain : ∀ c ∈ word, isPlain c = true) (hne : word ≠ []) {token after : Str}
    (hbefore : BeforeWord token.reverse) (hafter : AfterWord after) {quoted : Bool}
    {parts : List Str} (h : shlexFrom state quoted token (word ++ after) = some parts) :
    ∃ part ∈ parts, HasWord word part := by
  obtain ⟨quoted', hword⟩ := shlexFrom_plain hstate hplain quoted token after
  rw [hword] at h
  have hreverse : (word.reverse ++ token).reverse = token.reverse ++ word := by
    rw [List.reverse_append, List.reverse_reverse]
  have htoken : word.reverse ++ token ≠ [] := by simp [hne]
  have hfinished : HasWord word (token.reverse ++ word) :=
    ⟨token.reverse, [], (List.append_nil _).symm, hbefore, .inl rfl⟩
  rcases hafter with rfl | ⟨after, rfl⟩
  · cases state with
    | word =>
      rw [shlexFrom, if_neg (fun hempty => htoken hempty.1), hreverse, Option.some.injEq] at h
      rw [← h]
      exact ⟨_, List.mem_singleton_self _, hfinished⟩
    | quote q => cases h
    | space => exact hstate.elim
    | escape inQuotes => exact hstate.elim
  · cases state with
    | word =>
      have hspace : isShlexSpace ' ' = true := rfl
      rw [shlexFrom, if_pos hspace, if_neg (fun hempty => htoken hempty.1), hreverse,
        Option.map_eq_some_iff] at h
      obtain ⟨others, -, rfl⟩ := h
      exact ⟨_, List.mem_cons_self, hfinished⟩
    | quote q =>
      have hq : ' ' ≠ q := by
        rintro rfl
        have hnot : ' ' = '\'' ∨ ' ' = '"' := hstate
        exact absurd hnot (by decide)
      rw [shlexFrom, if_neg hq, if_neg (by simp)] at h
      have hquotes : (ShlexState.quote q).Quotes := hstate
      obtain ⟨part, hpart, tail, htail⟩ := shlexFrom_keeps hquotes nofun (List.cons_ne_nil _ _) h
      refine ⟨part, hpart, token.reverse, ' ' :: tail, ?_, hbefore, .inr ⟨tail, rfl⟩⟩
      rw [← htail, List.reverse_cons, hreverse, List.append_assoc _ [' ']]
      rfl
    | space => exact hstate.elim
    | escape inQuotes => exact hstate.elim

/-- A plain word that starts between words. -/
theorem shlexFrom_space {word : Str} (hplain : ∀ c ∈ word, isPlain c = true) (hne : word ≠ [])
    {after : Str} (hafter : AfterWord after) {quoted : Bool} {token : Str} {parts : List Str}
    (h : shlexFrom .space quoted token (word ++ after) = some parts) :
    ∃ part ∈ parts, HasWord word part := by
  cases word with
  | nil => exact absurd rfl hne
  | cons c word =>
    have hc : isShlexSpace c = false ∧ c ≠ '\\' ∧ c ≠ '\'' ∧ c ≠ '"' := by
      simpa [isPlain] using hplain c List.mem_cons_self
    obtain ⟨hspace, hbackslash, hsingle, hdouble⟩ := hc
    have hstep : shlexFrom .space quoted token (c :: (word ++ after)) =
        shlexFrom .word quoted [] (c :: (word ++ after)) := by
      simp [shlexFrom, hspace, hbackslash, hsingle, hdouble]
    rw [List.cons_append, hstep, ← List.cons_append] at h
    exact @shlexFrom_inWord .word trivial _ hplain hne [] after (.inl rfl) hafter quoted parts h

/-- A plain word of a text is a word of one of the words `shlex` splits it into. -/
theorem shlexFrom_hasWord {state : ShlexState} (hquotes : state.Quotes) {word : Str}
    (hplain : ∀ c ∈ word, isPlain c = true) (hne : word ≠ []) {before after : Str}
    (hafter : AfterWord after) {quoted : Bool} {token : Str} {parts : List Str}
    (h : shlexFrom state quoted token (before ++ ' ' :: (word ++ after)) = some parts) :
    ∃ part ∈ parts, HasWord word part := by
  induction before generalizing state quoted token parts with
  | nil =>
    rw [List.nil_append] at h
    rcases shlexFrom_blank hquotes quoted token (word ++ after) with
      ⟨quoted', token', hstep⟩ | hstep | ⟨state', quoted', token', hstep, hstate'⟩
    · rw [hstep] at h
      exact shlexFrom_space hplain hne hafter h
    · rw [hstep, Option.map_eq_some_iff] at h
      obtain ⟨others, hothers, rfl⟩ := h
      obtain ⟨part, hpart, hword⟩ := shlexFrom_space hplain hne hafter hothers
      exact ⟨part, List.mem_cons_of_mem _ hpart, hword⟩
    · rw [hstep] at h
      have hbefore : BeforeWord (' ' :: token').reverse := .inr ⟨token'.reverse, List.reverse_cons⟩
      exact shlexFrom_inWord hstate' hplain hne hbefore hafter h
  | cons c before ih =>
    rw [List.cons_append] at h
    rcases shlexFrom_cons hquotes quoted token c (before ++ ' ' :: (word ++ after)) with
      ⟨state', quoted', token', hstep, hquotes', -⟩ | hstep
    · exact ih hquotes' (hstep.symm.trans h)
    · rw [hstep, Option.map_eq_some_iff] at h
      obtain ⟨others, hothers, rfl⟩ := h
      have hspace : ShlexState.space.Quotes := trivial
      obtain ⟨part, hpart, hword⟩ := ih hspace hothers
      exact ⟨part, List.mem_cons_of_mem _ hpart, hword⟩

/-- A word of a text is one of those between white space. -/
theorem mem_words {word : Str} (hword : IsWord word) {text : Str} (h : HasWord word text) :
    word ∈ words text := by
  obtain ⟨before, after, rfl, hbefore, hafter⟩ := h
  have hstart : word ∈ words (word ++ after) := by
    rcases hafter with rfl | ⟨after, rfl⟩
    · rw [List.append_nil, words_of_isWord hword]
      exact List.mem_singleton_self _
    · rw [words_append_cons hword (by decide)]
      exact List.mem_cons_self
  rcases hbefore with rfl | ⟨before, rfl⟩
  · exact hstart
  · rw [List.append_assoc, List.append_assoc, List.singleton_append, words,
      List.splitOnP_append_cons _ _ (by decide), List.filter_append]
    exact List.mem_append_right _ hstart

/-! ### A URL that is nowhere else -/

/-- A URL that is longer than `n` characters. -/
def freshUrl (n : ℕ) : Str := "http://".toList ++ List.replicate (n + 1) 'x'

/-- An assignment of it. -/
def freshWord (n : ℕ) : Str := "X=".toList ++ freshUrl n

theorem freshUrl_chars (n : ℕ) : ∀ c ∈ freshUrl n, isUrlChar c = true ∧ isPlain c = true := by
  have hhead : ∀ c ∈ "http://".toList, isUrlChar c = true ∧ isPlain c = true :=
    forall_mem_of_all (by decide)
  intro c hc
  rcases List.mem_append.mp hc with hc | hc
  · exact hhead c hc
  · rw [List.eq_of_mem_replicate hc]
    exact ⟨rfl, rfl⟩

theorem freshWord_chars (n : ℕ) : ∀ c ∈ freshWord n, isUrlChar c = true ∧ isPlain c = true := by
  have hhead : ∀ c ∈ "X=".toList, isUrlChar c = true ∧ isPlain c = true :=
    forall_mem_of_all (by decide)
  intro c hc
  rcases List.mem_append.mp hc with hc | hc
  · exact hhead c hc
  · exact freshUrl_chars n c hc

theorem isWord_freshWord (n : ℕ) : IsWord (freshWord n) := by
  refine ⟨nofun, fun c hc => ?_⟩
  have hurl := (freshWord_chars n c hc).1
  simp only [isUrlChar, Bool.and_eq_true, Bool.not_eq_true'] at hurl
  exact hurl.1

@[simp] theorem cleanupUrl_freshUrl (n : ℕ) : cleanupUrl (freshUrl n) = freshUrl n := by
  have hlast : freshUrl n = "http://".toList ++ List.replicate n 'x' ++ ['x'] := by
    unfold freshUrl
    rw [List.replicate_succ', List.append_assoc]
  rw [hlast, cleanupUrl]
  exact List.rdropWhile_concat_neg _ _ _ (by simp)

theorem urlAt_freshUrl (n : ℕ) : urlAt (freshUrl n) = some (freshUrl n) := by
  have hhttps : urlWith "https".toList (freshUrl n) = none := rfl
  have htail : (List.replicate (n + 1) 'x').takeWhile isUrlChar = List.replicate (n + 1) 'x' :=
    List.takeWhile_eq_self_iff.mpr fun c hc => by
      rw [List.eq_of_mem_replicate hc]
      rfl
  have hhttp : urlWith "http".toList (freshUrl n) = some (freshUrl n) := by
    unfold urlWith
    dsimp only
    have hdrop : (freshUrl n).drop ("http".toList ++ "://".toList).length =
        List.replicate (n + 1) 'x' := rfl
    have hstart : ("http".toList ++ "://".toList).isPrefixOf (freshUrl n) = true := rfl
    rw [hdrop, htail, hstart, if_pos (by simp)]
    rfl
  show (urlWith "https".toList (freshUrl n) <|> (urlWith "http".toList (freshUrl n) <|> _)) = _
  rw [hhttps, hhttp]
  rfl

theorem freshUrl_mem_findUrls (n : ℕ) : freshUrl n ∈ findUrls (freshUrl n) := by
  obtain ⟨rest, hrest⟩ : ∃ rest, freshUrl n = 'h' :: rest := ⟨_, rfl⟩
  have hurl := urlAt_freshUrl n
  rw [hrest] at hurl ⊢
  rw [findUrls, findUrlsFrom, hurl]
  exact List.mem_cons_self

theorem findUrls_freshWord (n : ℕ) : findUrls (freshWord n) = findUrls (freshUrl n) := by
  obtain ⟨rest, hrest⟩ : ∃ rest, freshUrl n = 'h' :: rest := ⟨_, rfl⟩
  have hname : urlAt ('X' :: '=' :: freshUrl n) = none := rfl
  have hequals : urlAt ('=' :: freshUrl n) = none := rfl
  show findUrlsFrom 0 ('X' :: '=' :: freshUrl n) = _
  rw [findUrlsFrom, hname]
  dsimp only
  rw [findUrlsFrom, hequals]
  rfl

/-- A URL of a word is one of the text the word stands in. -/
theorem findUrls_hasWord {word text url : Str} (h : HasWord word text)
    (hurl : url ∈ findUrls word) : url ∈ findUrls text := by
  obtain ⟨before, after, rfl, hbefore, hafter⟩ := h
  have hstart : url ∈ findUrls (word ++ after) := by
    rcases hafter with rfl | ⟨after, rfl⟩
    · rwa [List.append_nil]
    · rw [findUrls_append (by decide)]
      exact List.mem_append_left _ hurl
  rcases hbefore with rfl | ⟨before, rfl⟩
  · exact hstart
  · rw [List.append_assoc, List.append_assoc, List.singleton_append, findUrls_append (by decide)]
    exact List.mem_append_right _ hstart

/-- A URL in a word of its own is found. -/
theorem freshUrl_mem_of_hasWord {n : ℕ} {text : Str} (h : HasWord (freshWord n) text) :
    freshUrl n ∈ findUrls text := by
  apply findUrls_hasWord h
  rw [findUrls_freshWord]
  exact freshUrl_mem_findUrls n

/-- It is found in the value of a word too. -/
theorem freshUrl_mem_valueOf {n : ℕ} {part : Str} (h : HasWord (freshWord n) part) :
    freshUrl n ∈ findUrls (valueOf part) := by
  obtain ⟨before, after, rfl, hbefore, hafter⟩ := h
  by_cases hequals : '=' ∈ before
  · -- the value has the word in it
    obtain ⟨name, value, rfl, hname⟩ := List.eq_append_cons_of_mem hequals
    have hvalue : valueOf (name ++ '=' :: value ++ freshWord n ++ after) =
        value ++ freshWord n ++ after := by
      rw [valueOf, List.append_assoc, List.append_assoc, List.cons_append,
        afterFirst_append_cons hname, Option.getD_some, List.append_assoc]
    have hstart : BeforeWord value := by
      have hassign : name ++ '=' :: value = (name ++ ['=']) ++ value := by simp
      rw [hassign] at hbefore
      exact hbefore.of_append
    rw [hvalue]
    exact freshUrl_mem_of_hasWord ⟨value, after, rfl, hstart, hafter⟩
  · -- the value is that of the word
    have hname : '=' ∉ before ++ ['X'] := by simp [hequals]
    have hassign : before ++ freshWord n ++ after = (before ++ ['X']) ++ '=' :: (freshUrl n ++ after) := by
      simp [freshWord]
    have hword : HasWord (freshUrl n) (freshUrl n ++ after) :=
      ⟨[], after, rfl, .inl rfl, hafter⟩
    rw [hassign, valueOf, afterFirst_append_cons hname, Option.getD_some]
    exact findUrls_hasWord hword (freshUrl_mem_findUrls n)

/-- A URL in a word of its own is one of those of an assignment, in quotes and out of them. -/
theorem freshUrl_mem_environment {n : ℕ} {value : Str} {before after : Str}
    (hvalue : value = before ++ ' ' :: (freshWord n ++ after)) (hafter : AfterWord after) :
    freshUrl n ∈ extractUrlsFromEnvironment value := by
  have hword : HasWord (freshWord n) value := by
    refine ⟨before ++ [' '], after, ?_, .inr ⟨before, rfl⟩, hafter⟩
    rw [hvalue]
    simp
  have hpart : ∃ part ∈ (shlexSplit value).getD (words value), HasWord (freshWord n) part := by
    cases hsplit : shlexSplit value with
    | none => exact ⟨_, mem_words (isWord_freshWord n) hword, .self _⟩
    | some parts =>
      rw [hvalue] at hsplit
      have hspace : ShlexState.space.Quotes := trivial
      exact shlexFrom_hasWord hspace (fun c hc => (freshWord_chars n c hc).2) nofun hafter hsplit
  obtain ⟨part, hpart, hhas⟩ := hpart
  exact List.mem_flatMap.mpr ⟨part, hpart, freshUrl_mem_valueOf hhas⟩

/-! ### A word of a line -/

theorem lstrip_append {front : Str} (h : lstrip front ≠ []) (back : Str) :
    lstrip (front ++ back) = lstrip front ++ back := by
  unfold lstrip at h ⊢
  rw [List.dropWhile_append]
  simp [h]

theorem rstrip_freshWord (n : ℕ) (front after : Str) :
    rstrip (front ++ (freshWord n ++ after)) = front ++ (freshWord n ++ rstrip after) := by
  obtain ⟨word, hword⟩ : ∃ word, freshWord n = word ++ ['x'] := by
    refine ⟨"X=http://".toList ++ List.replicate n 'x', ?_⟩
    unfold freshWord freshUrl
    rw [List.replicate_succ', ← List.append_assoc, ← List.append_assoc]
    rfl
  have hstops : (front ++ word ++ ['x'] ++ after).rdropWhile isSpace =
      front ++ word ++ ['x'] ++ after.rdropWhile isSpace := rdropWhile_stops rfl _ _
  rw [hword]
  simpa [rstrip] using hstops

theorem afterWord_rstrip {after : Str} (h : AfterWord after) : AfterWord (rstrip after) := by
  rcases h with rfl | ⟨after, rfl⟩
  · exact .inl rfl
  · have hstart : rstrip (' ' :: after) <+: ' ' :: after := List.rdropWhile_prefix _ _
    rcases List.prefix_cons_iff.mp hstart with hnil | ⟨rest, hrest, -⟩
    · exact .inl hnil
    · exact .inr ⟨rest, hrest⟩

theorem strip_freshWord {n : ℕ} {front : Str} (h : lstrip front ≠ []) (after : Str) :
    strip (front ++ ' ' :: (freshWord n ++ after)) =
      lstrip front ++ ' ' :: (freshWord n ++ rstrip after) := by
  have hright := rstrip_freshWord n (lstrip front ++ [' ']) after
  rw [strip, lstrip_append h]
  simpa using hright

section Visible

variable {n : ℕ} {front after : Str} {c : Char}

theorem lstrip_ne_nil (hvisible : (lstrip front).head? = some c) : lstrip front ≠ [] := fun h => by
  rw [h] at hvisible
  cases hvisible

theorem not_comment (hvisible : (lstrip front).head? = some c) (hc : c ≠ '#') (after : Str) :
    ¬ (strip (front ++ ' ' :: (freshWord n ++ after)) = [] ∨
      (strip (front ++ ' ' :: (freshWord n ++ after))).head? = some '#') := by
  rw [strip_freshWord (lstrip_ne_nil hvisible), List.head?_append, hvisible]
  simp [hc]

theorem hasWord_strip (hvisible : (lstrip front).head? = some c) (hafter : AfterWord after) :
    HasWord (freshWord n) (strip (front ++ ' ' :: (freshWord n ++ after))) := by
  rw [strip_freshWord (lstrip_ne_nil hvisible)]
  exact ⟨lstrip front ++ [' '], rstrip after, by simp, .inr ⟨_, rfl⟩, afterWord_rstrip hafter⟩

/-- A line that is no comment shows the URL of a word of its own. -/
theorem freshUrl_mem_unitLine (hafter : AfterWord after) (hvisible : (lstrip front).head? = some c)
    (hc : c ≠ '#') : freshUrl n ∈ urlsOfUnitLine (front ++ ' ' :: (freshWord n ++ after)) := by
  unfold urlsOfUnitLine
  dsimp only
  rw [if_neg (not_comment hvisible hc after)]
  split_ifs with henvironment
  · -- the directive has no blank, so it stands before the word
    rw [strip_freshWord (lstrip_ne_nil hvisible)] at henvironment ⊢
    have hstart : "Environment=".toList <+: lstrip front :=
      prefix_of_prefix_append_cons (by decide) (List.isPrefixOf_iff_prefix.mp henvironment)
    obtain ⟨value, hvalue⟩ := hstart
    rw [← hvalue, List.append_assoc]
    exact freshUrl_mem_environment rfl (afterWord_rstrip hafter)
  · exact freshUrl_mem_of_hasWord (hasWord_strip hvisible hafter)

/-- So does a line of an environment file. -/
theorem freshUrl_mem_envLine (hafter : AfterWord after) (hvisible : (lstrip front).head? = some c)
    (hc : c ≠ '#') : freshUrl n ∈ urlsOfEnvLine (front ++ ' ' :: (freshWord n ++ after)) := by
  have hword : HasWord (freshWord n) (strip (front ++ ' ' :: (freshWord n ++ after))) :=
    hasWord_strip hvisible hafter
  have hequals : '=' ∈ strip (front ++ ' ' :: (freshWord n ++ after)) := by
    obtain ⟨before, rest, hstrip, -, -⟩ := hword
    rw [hstrip]
    exact List.mem_append_left _ (List.mem_append_right _ (List.mem_cons_of_mem _ List.mem_cons_self))
  have hvalue := freshUrl_mem_valueOf hword
  unfold urlsOfEnvLine
  dsimp only
  rw [if_neg (not_comment hvisible hc after)]
  unfold valueOf at hvalue
  unfold afterFirst at hvalue ⊢
  rw [if_pos hequals] at hvalue ⊢
  exact hvalue

end Visible

/-! ### A number no URL is as long as -/

theorem length_freshUrl (n : ℕ) : n < (freshUrl n).length := by
  unfold freshUrl
  rw [List.length_append, List.length_replicate]
  omega

theorem exists_fresh (urls : List Str) : ∃ n, freshUrl n ∉ urls := by
  refine ⟨(urls.map List.length).sum, fun hmem => ?_⟩
  have hle := List.le_sum_of_mem (List.mem_map_of_mem hmem : _ ∈ urls.map List.length)
  exact absurd hle (not_le.mpr (length_freshUrl _))

end UdpAnalyzer
