import UdpAnalyzer.Catalog.UrlWords

/-! Comments in a unit or environment file. Continued lines are joined before comments are
told from directives, only `#` starts a comment, and a line ends where `splitlines` ends it:
so a comment may be read as a part of its neighbours, or hide one. -/

namespace UdpAnalyzer

/-! ### What is read off the lines of a unit file -/

/-- The URLs of one line of a unit file. -/
def lineUrls (line : Str) : List Str := (urlsOfUnitLine line).map cleanupUrl

/-- The value of an `EnvironmentFile=` line, without the dashes in front. -/
def lineSpecs (line : Str) : List Str :=
  if "EnvironmentFile=".toList.isPrefixOf (strip line) then
    [(strip ((strip line).drop "EnvironmentFile=".length)).dropWhile (· = '-')]
  else []

/-- A line is read without the white space around it, and nothing is read off an empty line
or a comment. -/
structure LineReader {α : Type} (read : Str → List α) : Prop where
  read_strip : ∀ {line line' : Str}, strip line = strip line' → read line = read line'
  read_nil : read [] = []
  read_comment : ∀ {line : Str}, (lstrip line).head? = some '#' → read line = []

/-- What is read off the joined lines of a text. -/
def reading {α : Type} (read : Str → List α) (lines : List Str) : List α :=
  (joinLines [] lines).flatMap read

theorem head?_strip {line : Str} {c : Char} (h : (lstrip line).head? = some c) :
    (strip line).head? = some c := by
  cases hstripped : lstrip line with
  | nil =>
    rw [hstripped] at h
    cases h
  | cons d rest =>
    have hspace : isSpace d = false := by
      have hhead := List.head?_dropWhile_not isSpace line
      rw [show List.dropWhile isSpace line = d :: rest from hstripped] at hhead
      simpa using hhead
    have hstops : (d :: rest).rdropWhile isSpace = d :: rest.rdropWhile isSpace :=
      rdropWhile_stops hspace [] rest
    rw [hstripped] at h
    rw [strip, hstripped, ← h, rstrip, hstops]
    rfl

theorem lineReader_lineUrls : LineReader lineUrls where
  read_strip h := by
    unfold lineUrls urlsOfUnitLine
    rw [h]
  read_nil := rfl
  read_comment h := by
    unfold lineUrls urlsOfUnitLine
    dsimp only
    rw [if_pos (.inr (head?_strip h))]
    rfl

theorem lineReader_lineSpecs : LineReader lineSpecs where
  read_strip h := by
    unfold lineSpecs
    rw [h]
  read_nil := rfl
  read_comment h := by
    unfold lineSpecs
    rw [if_neg]
    intro hprefix
    obtain ⟨rest, hrest⟩ := List.isPrefixOf_iff_prefix.mp hprefix
    have hhead : some 'E' = some '#' := by
      rw [← head?_strip h, ← hrest]
      rfl
    exact absurd hhead (by decide)

/-! ### Joining in pieces -/

/-- The lines that are finished within some physical lines, the first of which continues
`pending`. -/
def completedLines : Str → List Str → List Str
  | _, [] => []
  | pending, raw :: rest =>
    let line := rstrip raw
    if line.getLast? = some '\\' then completedLines (pending ++ line.dropLast ++ [' ']) rest
    else (pending ++ line) :: completedLines [] rest

/-- What the physical line after some others continues. -/
def pendingAfter : Str → List Str → Str
  | pending, [] => pending
  | pending, raw :: rest =>
    let line := rstrip raw
    if line.getLast? = some '\\' then pendingAfter (pending ++ line.dropLast ++ [' ']) rest
    else pendingAfter [] rest

/-- The first of the joined lines, and the physical lines behind it. -/
def firstJoined : List Str → Str × List Str
  | [] => ([], [])
  | raw :: rest =>
    let line := rstrip raw
    if line.getLast? = some '\\' then
      (line.dropLast ++ ' ' :: (firstJoined rest).1, (firstJoined rest).2)
    else (line, rest)

theorem joinLines_append (pending : Str) (front back : List Str) :
    joinLines pending (front ++ back) =
      completedLines pending front ++ joinLines (pendingAfter pending front) back := by
  induction front generalizing pending with
  | nil => rfl
  | cons raw rest ih =>
    rw [List.cons_append, joinLines, completedLines, pendingAfter]
    split_ifs
    · exact ih _
    · rw [ih, List.cons_append]

theorem flatMap_joinLines {α : Type} {read : Str → List α} (hread : LineReader read)
    (pending : Str) (lines : List Str) :
    (joinLines pending lines).flatMap read =
      read (pending ++ (firstJoined lines).1) ++ reading read (firstJoined lines).2 := by
  induction lines generalizing pending with
  | nil =>
    have hrest : reading read (firstJoined []).2 = [] := rfl
    rw [hrest, List.append_nil, joinLines]
    show _ = read (pending ++ [])
    rw [List.append_nil]
    split_ifs with hempty
    · rw [hempty, hread.read_nil]
      rfl
    · rw [List.flatMap_singleton]
  | cons raw rest ih =>
    rw [joinLines, firstJoined]
    split_ifs
    · rw [ih, List.append_assoc, List.append_assoc]
      rfl
    · rfl

/-- The lines of a text without the one that starts with some of its physical lines. -/
def otherLines (front back : List Str) : List Str :=
  completedLines [] front ++ joinLines [] (firstJoined back).2

section

variable {α : Type} {read : Str → List α} (hread : LineReader read) (front back : List Str) (x : α)
include hread

/-- What is read off two pieces of a text. -/
theorem mem_reading_append :
    x ∈ reading read (front ++ back) ↔ x ∈ (otherLines front back).flatMap read ∨
      x ∈ read (pendingAfter [] front ++ (firstJoined back).1) := by
  rw [reading, joinLines_append, List.flatMap_append, flatMap_joinLines hread, otherLines,
    List.flatMap_append, List.mem_append, List.mem_append, List.mem_append]
  tauto

/-- A line between the pieces that is continued takes the second with it. -/
theorem mem_reading_ending {raw : Str} (hraw : (rstrip raw).getLast? = some '\\') :
    x ∈ reading read (front ++ raw :: back) ↔ x ∈ (otherLines front back).flatMap read ∨
      x ∈ read (pendingAfter [] front ++ ((rstrip raw).dropLast ++ ' ' :: (firstJoined back).1)) := by
  have hfirst : firstJoined (raw :: back) =
      ((rstrip raw).dropLast ++ ' ' :: (firstJoined back).1, (firstJoined back).2) := by
    rw [firstJoined, if_pos hraw]
  rw [mem_reading_append hread, otherLines, hfirst, otherLines]

/-- A line between the pieces that is not continued ends what is pending. -/
theorem mem_reading_closed {raw : Str} (hraw : (rstrip raw).getLast? ≠ some '\\') :
    x ∈ reading read (front ++ raw :: back) ↔ x ∈ (otherLines front back).flatMap read ∨
      x ∈ read (firstJoined back).1 ∨ x ∈ read (pendingAfter [] front ++ rstrip raw) := by
  have hfirst : firstJoined (raw :: back) = (rstrip raw, back) := by
    rw [firstJoined, if_neg hraw]
  have hback := flatMap_joinLines hread [] back
  rw [List.nil_append] at hback
  rw [mem_reading_append hread, otherLines, hfirst, otherLines, List.flatMap_append,
    List.flatMap_append, List.mem_append, List.mem_append, hback, List.mem_append]
  unfold reading
  tauto

end

/-! ### What is read off a text -/

theorem joinLines_unbroken {pending : Str} {lines : List Str}
    (hpending : ∀ c ∈ pending, isLineBreak c = false)
    (hlines : ∀ line ∈ lines, ∀ c ∈ line, isLineBreak c = false) :
    ∀ line ∈ joinLines pending lines, ∀ c ∈ line, isLineBreak c = false := by
  induction lines generalizing pending with
  | nil =>
    intro line hline
    rw [joinLines] at hline
    split_ifs at hline
    · cases hline
    · rwa [List.mem_singleton.mp hline]
  | cons raw rest ih =>
    rw [List.forall_mem_cons] at hlines
    have hraw : ∀ c ∈ rstrip raw, isLineBreak c = false :=
      fun c hc => hlines.1 c ((List.rdropWhile_prefix _ _).subset hc)
    have happend : ∀ {text : Str}, (∀ c ∈ text, isLineBreak c = false) →
        ∀ c ∈ pending ++ text, isLineBreak c = false := by
      intro text htext c hc
      rcases List.mem_append.mp hc with hc | hc
      · exact hpending c hc
      · exact htext c hc
    rw [joinLines]
    split_ifs
    · apply ih _ hlines.2
      rw [List.append_assoc]
      apply happend
      intro c hc
      rcases List.mem_append.mp hc with hc | hc
      · exact hraw c (List.dropLast_subset _ hc)
      · rw [List.mem_singleton.mp hc]
        rfl
    · rw [List.forall_mem_cons]
      exact ⟨happend hraw, ih (fun c hc => absurd hc List.not_mem_nil) hlines.2⟩

/-- Joining the lines to a text and splitting it again does not change what is read. -/
theorem flatMap_splitLines {α : Type} {read : Str → List α} (hread : LineReader read) (text : Str) :
    (splitLines (joinSystemdContinuations text)).flatMap read = reading read (splitLines text) := by
  have hunbroken := joinLines_unbroken (fun c hc => absurd hc List.not_mem_nil)
    (fun line hline => @splitLines_unbroken text line hline)
  rcases splitLines_intercalate hunbroken with hsame | hempty
  · rw [joinSystemdContinuations, hsame, reading]
  · rw [reading, ← hempty, List.flatMap_append, List.flatMap_singleton, hread.read_nil,
      List.append_nil, joinSystemdContinuations]

theorem extractUrlsFromUnit_eq (text : Str) :
    extractUrlsFromUnit text = reading lineUrls (splitLines text) := by
  rw [← flatMap_splitLines lineReader_lineUrls, extractUrlsFromUnit, List.map_flatMap]
  rfl

theorem environmentFileSpecs_eq (text : Str) :
    environmentFileSpecs (joinSystemdContinuations text) = reading lineSpecs (splitLines text) := by
  rw [← flatMap_splitLines lineReader_lineSpecs, environmentFileSpecs,
    List.filterMap_eq_flatMap_toList]
  congr 1
  funext line
  unfold lineSpecs
  dsimp only
  split_ifs <;> rfl

/-! ### Comments -/

/-- What a comment starts with, as systemd has it. -/
inductive Marker where
  | hash
  | semicolon
  deriving DecidableEq, Repr

def Marker.char : Marker → Char
  | .hash => '#'
  | .semicolon => ';'

/-- A kind of comments: what they start with, whether a backslash is their last character but
for white space, and whether `splitlines` sees a line break in them, such as a form feed. -/
structure CommentKind where
  marker : Marker
  ending : Bool
  broken : Bool
  deriving DecidableEq, Repr

/-- A comment of a kind, without its line feed. -/
structure IsComment (kind : CommentKind) (comment : Str) : Prop where
  marked : ∃ blanks content, comment = blanks ++ kind.marker.char :: content ∧
    ∀ c ∈ blanks, c = ' ' ∨ c = '\t' ∨ c = '\r'
  one_line : '\n' ∉ comment
  ending_iff : kind.ending = true ↔ (rstrip comment).getLast? = some '\\'
  broken_iff : kind.broken = true ↔ ∃ c ∈ comment, isLineBreak c = true

/-- A text with a comment between two of its physical lines. -/
def insertComment (front comment back : Str) : Str := front ++ (comment ++ '\n' :: back)

/-- What is read off a text as a unit file: its URLs, and its environment files. -/
structure SameReading (text text' : Str) : Prop where
  urls : ∀ url, url ∈ extractUrlsFromUnit text ↔ url ∈ extractUrlsFromUnit text'
  specs : ∀ spec, spec ∈ environmentFileSpecs (joinSystemdContinuations text) ↔
    spec ∈ environmentFileSpecs (joinSystemdContinuations text')

/-- What is read off the first line of the rest of a text is read off other lines as well. -/
structure Expendable (front back : Str) : Prop where
  urls : ∀ url ∈ lineUrls (firstJoined (splitLines back)).1,
    url ∈ (otherLines (splitLines front) (splitLines back)).flatMap lineUrls
  specs : ∀ spec ∈ lineSpecs (firstJoined (splitLines back)).1,
    spec ∈ (otherLines (splitLines front) (splitLines back)).flatMap lineSpecs

/-- The first character of what the line after a text continues, if it continues one. -/
def pendingHead (front : Str) : Option Char :=
  (lstrip (pendingAfter [] (splitLines front))).head?

/-- Where comments of a kind are read as comments: no line break is in them, and what is
before them is not continued, when they start with `#`, and what they swallow if they end
with a backslash is expendable; or they are in a comment that is continued, and what they
let go if they do not end with a backslash is expendable. -/
structure SparesComments (kind : CommentKind) (front back : Str) : Prop where
  unbroken : kind.broken = false
  head : pendingHead front = none ∨ pendingHead front = some '#'
  alone : pendingHead front = none →
    kind.marker = .hash ∧ (kind.ending = true → Expendable front back)
  within : pendingHead front = some '#' → kind.ending = false → Expendable front back

/-! ### Comments that are read as comments -/

theorem splitLines_insertComment {front comment : Str} (hfront : EndsLine front)
    (hcomment : ∀ c ∈ comment, isLineBreak c = false) (back : Str) :
    splitLines (insertComment front comment back) =
      splitLines front ++ comment :: splitLines back := by
  rw [insertComment, splitLines_append hfront, splitLines_append_cons hcomment]

theorem strip_append_blank {pending : Str} (h : (lstrip pending).head? = none) (line : Str) :
    strip (pending ++ line) = strip line := by
  have hempty : pending.dropWhile isSpace = [] := List.head?_eq_none_iff.mp h
  rw [strip, strip, lstrip, List.dropWhile_append, hempty]
  rfl

theorem head?_lstrip_append {front : Str} {c : Char} (h : (lstrip front).head? = some c)
    (back : Str) : (lstrip (front ++ back)).head? = some c := by
  have hne : lstrip front ≠ [] := fun hempty => by
    rw [hempty] at h
    cases h
  rw [lstrip_append hne, List.head?_append, h]
  rfl

section

variable {kind : CommentKind} {comment : Str} (hcomment : IsComment kind comment)
include hcomment

theorem IsComment.unbroken (h : kind.broken = false) : ∀ c ∈ comment, isLineBreak c = false := by
  intro c hc
  by_contra hbreak
  have htrue := hcomment.broken_iff.mpr ⟨c, hc, Bool.not_eq_false _ ▸ hbreak⟩
  rw [h] at htrue
  cases htrue

theorem IsComment.rstrip_eq : ∃ blanks content,
    rstrip comment = blanks ++ kind.marker.char :: content ∧ ∀ c ∈ blanks, isSpace c = true := by
  obtain ⟨blanks, content, rfl, hblanks⟩ := hcomment.marked
  have hmarker : isSpace kind.marker.char = false := by
    cases kind.marker <;> rfl
  have hstops := rdropWhile_stops hmarker blanks content
  refine ⟨blanks, rstrip content, ?_, fun c hc => ?_⟩
  · rw [rstrip, rstrip]
    simpa using hstops
  · rcases hblanks c hc with rfl | rfl | rfl <;> rfl

omit hcomment in
theorem head?_lstrip_marker {blanks : Str} (h : ∀ c ∈ blanks, isSpace c = true) (marker : Marker)
    (content : Str) : (lstrip (blanks ++ marker.char :: content)).head? = some marker.char := by
  have hmarker : isSpace marker.char = false := by
    cases marker <;> rfl
  rw [lstrip, List.dropWhile_append_of_pos h, List.dropWhile_cons, hmarker]
  rfl

/-- A comment starts with its marker. -/
theorem IsComment.head?_rstrip : (lstrip (rstrip comment)).head? = some kind.marker.char := by
  obtain ⟨blanks, content, hrstrip, hblanks⟩ := hcomment.rstrip_eq
  rw [hrstrip]
  exact head?_lstrip_marker hblanks _ _

/-- So does what is left of one that ends with a backslash. -/
theorem IsComment.head?_dropLast (h : (rstrip comment).getLast? = some '\\') :
    (lstrip (rstrip comment).dropLast).head? = some kind.marker.char := by
  obtain ⟨blanks, content, hrstrip, hblanks⟩ := hcomment.rstrip_eq
  rw [hrstrip] at h ⊢
  have hcontent : content ≠ [] := by
    rintro rfl
    rw [List.getLast?_append, List.getLast?_singleton, Option.some_or, Option.some.injEq] at h
    cases hmarker : kind.marker <;> rw [hmarker] at h <;> exact absurd h (by decide)
  rw [List.dropLast_append_of_ne_nil (List.cons_ne_nil _ _), List.dropLast_cons_of_ne_nil hcontent]
  exact head?_lstrip_marker hblanks _ _

end

section

variable {α : Type} {read : Str → List α} (hread : LineReader read) {kind : CommentKind}
  {comment : Str} (hcomment : IsComment kind comment) {front back : List Str}
include hread

theorem read_pending_blank (h : (lstrip (pendingAfter [] front)).head? = none) (line : Str) :
    read (pendingAfter [] front ++ line) = read line :=
  hread.read_strip (strip_append_blank h line)

theorem read_pending_comment (h : (lstrip (pendingAfter [] front)).head? = some '#') (line : Str) :
    read (pendingAfter [] front ++ line) = [] :=
  hread.read_comment (head?_lstrip_append h line)

include hcomment

/-- Where a comment is read as a comment, nothing else changes. -/
theorem mem_reading_spared
    (hhead : (lstrip (pendingAfter [] front)).head? = none ∨
      (lstrip (pendingAfter [] front)).head? = some '#')
    (halone : (lstrip (pendingAfter [] front)).head? = none → kind.marker = .hash ∧
      (kind.ending = true → ∀ x ∈ read (firstJoined back).1, x ∈ (otherLines front back).flatMap read))
    (hwithin : (lstrip (pendingAfter [] front)).head? = some '#' → kind.ending = false →
      ∀ x ∈ read (firstJoined back).1, x ∈ (otherLines front back).flatMap read) (x : α) :
    x ∈ reading read (front ++ back) ↔ x ∈ reading read (front ++ comment :: back) := by
  rw [mem_reading_append hread]
  by_cases hending : (rstrip comment).getLast? = some '\\'
  · rw [mem_reading_ending hread _ _ _ hending]
    rcases hhead with hhead | hhead
    · -- the comment takes the next line with it
      obtain ⟨hmarker, hexpendable⟩ := halone hhead
      have hcontent := hcomment.head?_dropLast hending
      rw [hmarker] at hcontent
      rw [read_pending_blank hread hhead, read_pending_blank hread hhead,
        hread.read_comment (head?_lstrip_append hcontent _)]
      have hlost := hexpendable (hcomment.ending_iff.mpr hending) x
      simp only [List.not_mem_nil, or_false]
      tauto
    · rw [read_pending_comment hread hhead, read_pending_comment hread hhead]
  · rw [mem_reading_closed hread _ _ _ hending]
    rcases hhead with hhead | hhead
    · have hcontent := hcomment.head?_rstrip
      rw [(halone hhead).1] at hcontent
      rw [read_pending_blank hread hhead, read_pending_blank hread hhead,
        hread.read_comment hcontent]
      simp only [List.not_mem_nil, or_false]
    · -- the comment before it ends with it
      have hnot : kind.ending = false :=
        Bool.eq_false_iff.mpr fun h => hending (hcomment.ending_iff.mp h)
      have hfreed := hwithin hhead hnot x
      rw [read_pending_comment hread hhead, read_pending_comment hread hhead]
      simp only [List.not_mem_nil, or_false]
      tauto

end

/-- A comment a text spares changes nothing that is read off it. -/
theorem sameReading_of_spares {kind : CommentKind} {front back comment : Str}
    (hfront : EndsLine front) (hcomment : IsComment kind comment) (h : SparesComments kind front back) :
    SameReading (front ++ back) (insertComment front comment back) := by
  have hunbroken := hcomment.unbroken h.unbroken
  constructor
  · intro url
    rw [extractUrlsFromUnit_eq, extractUrlsFromUnit_eq, splitLines_append hfront,
      splitLines_insertComment hfront hunbroken]
    exact mem_reading_spared lineReader_lineUrls hcomment h.head
      (fun hhead => ⟨(h.alone hhead).1, fun hending => ((h.alone hhead).2 hending).urls⟩)
      (fun hhead hending => (h.within hhead hending).urls) url
  · intro spec
    rw [environmentFileSpecs_eq, environmentFileSpecs_eq, splitLines_append hfront,
      splitLines_insertComment hfront hunbroken]
    exact mem_reading_spared lineReader_lineSpecs hcomment h.head
      (fun hhead => ⟨(h.alone hhead).1, fun hending => ((h.alone hhead).2 hending).specs⟩)
      (fun hhead hending => (h.within hhead hending).specs) spec

/-! ### Comments that are not -/

section

variable {α : Type} {read : Str → List α} (hread : LineReader read) {kind : CommentKind}
  {comment : Str} (hcomment : IsComment kind comment) {front back : List Str}
include hread hcomment

/-- A comment that swallows or frees a line, and changes nothing, is before an expendable
line. -/
theorem mem_otherLines_of_same
    (hkind : (lstrip (pendingAfter [] front)).head? = none ∧ kind.marker = .hash ∧
        kind.ending = true ∨
      (lstrip (pendingAfter [] front)).head? = some '#' ∧ kind.ending = false)
    (hsame : ∀ x, x ∈ reading read (front ++ back) ↔ x ∈ reading read (front ++ comment :: back))
    {x : α} (hx : x ∈ read (firstJoined back).1) : x ∈ (otherLines front back).flatMap read := by
  have hsame := hsame x
  rw [mem_reading_append hread] at hsame
  rcases hkind with ⟨hhead, hmarker, hkind⟩ | ⟨hhead, hkind⟩
  · have hending := hcomment.ending_iff.mp hkind
    have hcontent := hcomment.head?_dropLast hending
    rw [hmarker] at hcontent
    rw [mem_reading_ending hread _ _ _ hending, read_pending_blank hread hhead,
      read_pending_blank hread hhead, hread.read_comment (head?_lstrip_append hcontent _)] at hsame
    exact (hsame.mp (.inr hx)).resolve_right List.not_mem_nil
  · have hending : (rstrip comment).getLast? ≠ some '\\' := fun h => by
      rw [hcomment.ending_iff.mpr h] at hkind
      cases hkind
    rw [mem_reading_closed hread _ _ _ hending, read_pending_comment hread hhead] at hsame
    exact (hsame.mpr (.inr (.inl hx))).resolve_right List.not_mem_nil

end

/-- The end of a comment with a URL. -/
def sampleEnd (ending : Bool) : Str := if ending then " \\".toList else []

/-- A comment of a kind, with a URL of at least `n` characters. -/
def sampleComment (kind : CommentKind) (n : ℕ) : Str :=
  kind.marker.char :: ((if kind.broken then "\x0c;".toList else []) ++
    ' ' :: (freshWord n ++ sampleEnd kind.ending))

theorem rstrip_sample (front : Str) (n : ℕ) (ending : Bool) :
    rstrip (front ++ (freshWord n ++ sampleEnd ending)) =
      front ++ (freshWord n ++ sampleEnd ending) := by
  rw [rstrip_freshWord]
  cases ending <;> rfl

theorem getLast?_freshWord (n : ℕ) : (freshWord n).getLast? = some 'x' := by
  unfold freshWord freshUrl
  rw [List.replicate_succ', ← List.append_assoc, ← List.append_assoc, List.getLast?_append]
  rfl

theorem getLast?_sample (front : Str) (n : ℕ) (ending : Bool) :
    ending = true ↔ (front ++ (freshWord n ++ sampleEnd ending)).getLast? = some '\\' := by
  cases ending with
  | true => simp [sampleEnd]
  | false => simp [sampleEnd, getLast?_freshWord]

theorem freshWord_unbroken (n : ℕ) : ∀ c ∈ freshWord n, isLineBreak c = false := fun c hc =>
  not_lineBreak_of_not_space ((isWord_freshWord n).plain c hc)

/-- The form feed of a broken comment is the only line break in it. -/
theorem mem_sampleComment {kind : CommentKind} {n : ℕ} {c : Char}
    (h : c ∈ sampleComment kind n) : isLineBreak c = false ∨ kind.broken = true ∧ c = '\x0c' := by
  obtain ⟨marker, ending, broken⟩ := kind
  have hend : ∀ c ∈ sampleEnd ending, isLineBreak c = false := by
    cases ending <;> exact forall_mem_of_all (by decide)
  have hfeed : ∀ c ∈ "\x0c;".toList, isLineBreak c = false ∨ c = '\x0c' :=
    forall_mem_of_all (by decide)
  rcases List.mem_cons.mp h with rfl | h
  · exact .inl (by cases marker <;> rfl)
  · rcases List.mem_append.mp h with h | h
    · cases broken with
      | true => exact (hfeed c h).imp id fun h => ⟨rfl, h⟩
      | false => cases h
    · rcases List.mem_cons.mp h with rfl | h
      · exact .inl rfl
      · rcases List.mem_append.mp h with h | h
        · exact .inl (freshWord_unbroken n c h)
        · exact .inl (hend c h)

theorem isComment_sample (kind : CommentKind) (n : ℕ) : IsComment kind (sampleComment kind n) where
  marked := ⟨[], _, rfl, fun c hc => absurd hc List.not_mem_nil⟩
  one_line h := by
    rcases mem_sampleComment h with h | ⟨-, h⟩
    · cases h
    · exact absurd h (by decide)
  ending_iff := by
    have hsplit : sampleComment kind n =
        (kind.marker.char :: ((if kind.broken then "\x0c;".toList else []) ++ [' '])) ++
          (freshWord n ++ sampleEnd kind.ending) := by
      simp [sampleComment]
    rw [hsplit, rstrip_sample]
    exact getLast?_sample _ n kind.ending
  broken_iff := by
    constructor
    · intro h
      refine ⟨'\x0c', ?_, rfl⟩
      unfold sampleComment
      rw [h]
      exact List.mem_cons_of_mem _ List.mem_cons_self
    · rintro ⟨c, hc, hbreak⟩
      rcases mem_sampleComment hc with h | h
      · rw [hbreak] at h
        cases h
      · exact h.1

/-- A comment behind something that is none shows its URL. -/
theorem freshUrl_mem_reading {front : List Str} {marker c : Char}
    (hvisible : (lstrip (pendingAfter [] front ++ [marker])).head? = some c) (hc : c ≠ '#') (n : ℕ)
    (ending : Bool) (back : List Str) :
    freshUrl n ∈ reading lineUrls
      (front ++ (marker :: ' ' :: (freshWord n ++ sampleEnd ending)) :: back) := by
  have hread := lineReader_lineUrls
  have hrstrip : rstrip (marker :: ' ' :: (freshWord n ++ sampleEnd ending)) =
      marker :: ' ' :: (freshWord n ++ sampleEnd ending) := rstrip_sample [marker, ' '] n ending
  have hlast := getLast?_sample [marker, ' '] n ending
  have hurl : ∀ {after : Str}, AfterWord after →
      freshUrl n ∈ lineUrls ((pendingAfter [] front ++ [marker]) ++ ' ' :: (freshWord n ++ after)) :=
    fun hafter => List.mem_map.mpr
      ⟨freshUrl n, freshUrl_mem_unitLine hafter hvisible hc, cleanupUrl_freshUrl n⟩
  cases ending with
  | true =>
    have hending : (rstrip (marker :: ' ' :: (freshWord n ++ sampleEnd true))).getLast? =
        some '\\' := by
      rw [hrstrip]
      exact hlast.mp rfl
    apply (mem_reading_ending hread front back _ hending).mpr
    rw [hrstrip]
    have hline := hurl (.inr ⟨' ' :: (firstJoined back).1, rfl⟩)
    have hdrop : (marker :: ' ' :: (freshWord n ++ sampleEnd true)).dropLast =
        marker :: ' ' :: (freshWord n ++ [' ']) := by
      have hconcat : marker :: ' ' :: (freshWord n ++ sampleEnd true) =
          (marker :: ' ' :: (freshWord n ++ [' '])) ++ ['\\'] := by
        simp [sampleEnd]
      rw [hconcat, List.dropLast_concat]
    rw [hdrop]
    right
    simpa using hline
  | false =>
    have hending : (rstrip (marker :: ' ' :: (freshWord n ++ sampleEnd false))).getLast? ≠
        some '\\' := by
      rw [hrstrip]
      exact fun h => absurd (hlast.mpr h) Bool.false_ne_true
    apply (mem_reading_closed hread front back _ hending).mpr
    rw [hrstrip]
    have hline := hurl (.inl rfl)
    right
    right
    simpa [sampleEnd] using hline

/-- The physical lines of a comment, as `splitlines` sees them. -/
def sampleLines (kind : CommentKind) (n : ℕ) : List Str :=
  if kind.broken then
    [[kind.marker.char], ';' :: ' ' :: (freshWord n ++ sampleEnd kind.ending)]
  else [kind.marker.char :: ' ' :: (freshWord n ++ sampleEnd kind.ending)]

theorem splitLines_insertSample (kind : CommentKind) (n : ℕ) {front : Str} (hfront : EndsLine front)
    (back : Str) : splitLines (insertComment front (sampleComment kind n) back) =
      splitLines front ++ (sampleLines kind n ++ splitLines back) := by
  cases hbroken : kind.broken with
  | false =>
    have hunbroken := (isComment_sample kind n).unbroken hbroken
    rw [splitLines_insertComment hfront hunbroken, sampleLines, sampleComment, hbroken]
    rfl
  | true =>
    have hbehind : ∀ c ∈ ';' :: ' ' :: (freshWord n ++ sampleEnd kind.ending),
        isLineBreak c = false := by
      have hsemicolon := (isComment_sample ⟨.semicolon, kind.ending, false⟩ n).unbroken rfl
      exact hsemicolon
    have hfeed : splitLines (sampleComment kind n ++ '\n' :: back) =
        [kind.marker.char] ::
          splitLines ((';' :: ' ' :: (freshWord n ++ sampleEnd kind.ending)) ++ '\n' :: back) := by
      unfold sampleComment
      rw [hbroken]
      cases kind.marker <;> rfl
    rw [insertComment, splitLines_append hfront, hfeed, splitLines_append_cons hbehind, sampleLines,
      hbroken]
    rfl

theorem pendingAfter_append (pending : Str) (front back : List Str) :
    pendingAfter pending (front ++ back) = pendingAfter (pendingAfter pending front) back := by
  induction front generalizing pending with
  | nil => rfl
  | cons raw rest ih =>
    rw [List.cons_append, pendingAfter, pendingAfter]
    split_ifs
    · exact ih _
    · exact ih _

/-- Unless it is read as a comment, a comment shows its URL. -/
theorem freshUrl_mem_insertSample {kind : CommentKind} {front : Str} (hfront : EndsLine front)
    (h : kind.broken = true ∨ (∃ c, pendingHead front = some c ∧ c ≠ '#') ∨
      pendingHead front = none ∧ kind.marker = .semicolon) (n : ℕ) (back : Str) :
    freshUrl n ∈ extractUrlsFromUnit (insertComment front (sampleComment kind n) back) := by
  rw [extractUrlsFromUnit_eq, splitLines_insertSample kind n hfront, sampleLines]
  by_cases hbroken : kind.broken = true
  · -- what is behind the form feed is a line of its own
    have hpending : pendingAfter [] (splitLines front ++ [[kind.marker.char]]) = [] := by
      rw [pendingAfter_append]
      cases kind.marker <;> rfl
    have hvisible : (lstrip (pendingAfter [] (splitLines front ++ [[kind.marker.char]]) ++ [';'])).head? =
        some ';' := by
      rw [hpending]
      rfl
    have hleak := freshUrl_mem_reading hvisible (by decide) n kind.ending (splitLines back)
    rw [if_pos hbroken]
    simpa using hleak
  · rw [if_neg hbroken]
    have hvisible : ∃ c, (lstrip (pendingAfter [] (splitLines front) ++ [kind.marker.char])).head? =
        some c ∧ c ≠ '#' := by
      rcases h.resolve_left hbroken with ⟨c, hhead, hc⟩ | ⟨hhead, hmarker⟩
      · exact ⟨c, head?_lstrip_append hhead _, hc⟩
      · refine ⟨';', ?_, by decide⟩
        have hempty : (pendingAfter [] (splitLines front)).dropWhile isSpace = [] :=
          List.head?_eq_none_iff.mp hhead
        rw [hmarker, lstrip, List.dropWhile_append, hempty]
        rfl
    obtain ⟨c, hvisible, hc⟩ := hvisible
    exact freshUrl_mem_reading hvisible hc n kind.ending (splitLines back)

/-- Comments of a kind change nothing that is read off a text only if it spares them. -/
theorem spares_of_sameReading {kind : CommentKind} {front back : Str} (hfront : EndsLine front)
    (h : ∀ comment, IsComment kind comment →
      SameReading (front ++ back) (insertComment front comment back)) : SparesComments kind front back := by
  obtain ⟨n, hfresh⟩ := exists_fresh (extractUrlsFromUnit (front ++ back))
  have hcomment := isComment_sample kind n
  have hsame := h _ hcomment
  have hhidden : ¬ (kind.broken = true ∨ (∃ c, pendingHead front = some c ∧ c ≠ '#') ∨
      pendingHead front = none ∧ kind.marker = .semicolon) := fun hkind =>
    hfresh ((hsame.urls _).mpr (freshUrl_mem_insertSample hfront hkind n back))
  push Not at hhidden
  obtain ⟨hbroken, hhead, hmarker⟩ := hhidden
  have hunbroken : kind.broken = false := Bool.eq_false_iff.mpr hbroken
  have hexpendable : pendingHead front = none ∧ kind.marker = .hash ∧ kind.ending = true ∨
      pendingHead front = some '#' ∧ kind.ending = false → Expendable front back := by
    intro hkind
    have hlines := splitLines_insertComment hfront (hcomment.unbroken hunbroken) back
    constructor
    · intro url hurl
      refine mem_otherLines_of_same lineReader_lineUrls hcomment hkind (fun x => ?_) hurl
      have hurls := hsame.urls x
      rwa [extractUrlsFromUnit_eq, extractUrlsFromUnit_eq, splitLines_append hfront,
        hlines] at hurls
    · intro spec hspec
      refine mem_otherLines_of_same lineReader_lineSpecs hcomment hkind (fun x => ?_) hspec
      have hspecs := hsame.specs x
      rwa [environmentFileSpecs_eq, environmentFileSpecs_eq, splitLines_append hfront,
        hlines] at hspecs
  have hhash : pendingHead front = none → kind.marker = .hash := fun hnone => by
    cases hkind : kind.marker with
    | hash => rfl
    | semicolon => exact absurd hkind (hmarker hnone)
  exact {
    unbroken := hunbroken
    head := by
      cases hpending : pendingHead front with
      | none => exact .inl rfl
      | some c => exact .inr (congrArg some (hhead c hpending))
    alone := fun hnone =>
      ⟨hhash hnone, fun hending => hexpendable (.inl ⟨hnone, hhash hnone, hending⟩)⟩
    within := fun hsome hending => hexpendable (.inr ⟨hsome, hending⟩) }

end UdpAnalyzer
