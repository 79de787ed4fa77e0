import UdpAnalyzer.Lib.Printf
import UdpAnalyzer.Lib.Search

/-! Tables of text. A line has its cells padded to the widths of the columns, with two blanks
between them, so that the cells of a column start at one offset in every line whose cells are no
wider; and a printed text has its lines as long as no cell brings a line feed of its own. -/

namespace UdpAnalyzer

/-! ### A line -/

/-- `"  ".join(cell.ljust(width) …)`. -/
def tableLine (widths : List ℕ) (cells : List (List Char)) : List Char :=
  [' ', ' '].intercalate (List.zipWith padRight widths cells)

/-- The offsets the columns start at. -/
def columnStarts : List ℕ → List ℕ
  | [] => []
  | width :: widths => 0 :: (columnStarts widths).map (width + 2 + ·)

/-- The cells stand in the line, each at the start of its column, whole, and with a blank at
least before the next. -/
structure CellsAt (starts : List ℕ) (cells : List (List Char)) (line : List Char) : Prop where
  length : cells.length = starts.length
  whole : ∀ (i start : ℕ) cell, starts[i]? = some start → cells[i]? = some cell →
    cell <+: line.drop start
  apart : ∀ (i start next : ℕ) cell, starts[i]? = some start → starts[i + 1]? = some next →
    cells[i]? = some cell → start + cell.length < next

theorem CellsAt.exists_start {starts : List ℕ} {cells : List (List Char)} {line cell : List Char}
    {i : ℕ} (h : CellsAt starts cells line) (hcell : cells[i]? = some cell) :
    ∃ start, starts[i]? = some start ∧ cell <+: line.drop start := by
  have hi : i < starts.length := by
    rw [← h.length]
    exact (List.getElem?_eq_some_iff.mp hcell).choose
  have hstart := List.getElem?_eq_getElem hi
  exact ⟨starts[i], hstart, h.whole i _ cell hstart hcell⟩

/-- No cell is wider than its column. -/
abbrev FitColumns (widths : List ℕ) (cells : List (List Char)) : Prop :=
  List.Forall₂ (fun width cell => cell.length ≤ width) widths cells

theorem length_padRight {width : ℕ} {s : List Char} (h : s.length ≤ width) :
    (padRight width s).length = width := by
  rw [padRight, List.length_append, List.length_replicate]
  omega

theorem tableLine_cons_cons (width width' : ℕ) (widths : List ℕ) (cell cell' : List Char)
    (cells : List (List Char)) : tableLine (width :: width' :: widths) (cell :: cell' :: cells) =
      padRight width cell ++ ([' ', ' '] ++ tableLine (width' :: widths) (cell' :: cells)) := by
  rw [tableLine, List.zipWith_cons_cons, List.zipWith_cons_cons, List.intercalate_cons_cons,
    List.append_assoc]
  rfl

theorem tableLine_singleton (width : ℕ) (cell : List Char) :
    tableLine [width] [cell] = padRight width cell := by
  rw [tableLine, List.zipWith_cons_cons, List.zipWith_nil_left, List.intercalate_singleton]

theorem cellsAt_nil (line : List Char) : CellsAt [] [] line where
  length := rfl
  whole _ _ _ hstart := by cases hstart
  apart _ _ _ _ hstart := by cases hstart

/-- A cell before a line whose cells stand at their starts. -/
theorem CellsAt.cons {starts : List ℕ} {cells : List (List Char)} {line cell : List Char}
    {width : ℕ} (h : CellsAt starts cells line) (hwide : cell.length ≤ width) :
    CellsAt (0 :: starts.map (width + 2 + ·)) (cell :: cells)
      (padRight width cell ++ ([' ', ' '] ++ line)) where
  length := by rw [List.length_cons, List.length_cons, List.length_map, h.length]
  whole i start c hstart hcell := by
    cases i with
    | zero =>
      cases hstart
      cases hcell
      rw [List.drop_zero, padRight, List.append_assoc]
      exact List.prefix_append _ _
    | succ i =>
      rw [List.getElem?_cons_succ, List.getElem?_map, Option.map_eq_some_iff] at hstart
      obtain ⟨start, hstart, rfl⟩ := hstart
      have hdrop : (padRight width cell ++ ([' ', ' '] ++ line)).drop (width + 2 + start) =
          line.drop start := by
        rw [← List.append_assoc, ← List.drop_drop]
        rw [List.drop_left' (by rw [List.length_append, length_padRight hwide]; rfl)]
      rw [hdrop]
      exact h.whole i start c hstart hcell
  apart i start next c hstart hnext hcell := by
    rw [List.getElem?_cons_succ, List.getElem?_map, Option.map_eq_some_iff] at hnext
    obtain ⟨next, hnext, rfl⟩ := hnext
    cases i with
    | zero =>
      cases hstart
      cases hcell
      omega
    | succ i =>
      rw [List.getElem?_cons_succ, List.getElem?_map, Option.map_eq_some_iff] at hstart
      obtain ⟨start, hstart, rfl⟩ := hstart
      have hapart := h.apart i start next c hstart hnext hcell
      omega

/-- The last cell of a line. -/
theorem cellsAt_singleton {cell : List Char} (width : ℕ) :
    CellsAt [0] [cell] (padRight width cell) where
  length := rfl
  whole i start c hstart hcell := by
    cases i with
    | zero =>
      cases hstart
      cases hcell
      exact List.prefix_append _ _
    | succ i => cases hstart
  apart i _ _ _ _ hnext := by cases hnext

/-- The cells of a line stand at the starts of the columns. -/
theorem cellsAt_tableLine {widths : List ℕ} {cells : List (List Char)}
    (h : FitColumns widths cells) : CellsAt (columnStarts widths) cells (tableLine widths cells) := by
  induction h with
  | nil => exact cellsAt_nil _
  | @cons width cell widths cells hwide hrest ih =>
    cases hrest with
    | nil =>
      rw [tableLine_singleton]
      exact cellsAt_singleton width
    | @cons width' cell' widths cells hwide' hrest =>
      rw [tableLine_cons_cons]
      exact ih.cons hwide

theorem words_append_blanks {cell : List Char} (hword : IsWord cell) (k : ℕ) (text : List Char) :
    words (cell ++ (List.replicate k ' ' ++ ([' ', ' '] ++ text))) = cell :: words text := by
  have hblanks : List.replicate k ' ' ++ ([' ', ' '] ++ text) =
      ' ' :: (List.replicate (k + 1) ' ' ++ text) := by
    rw [← List.append_assoc, ← List.cons_append, ← List.replicate_succ]
    exact congrArg (· ++ text) (List.replicate_append_replicate (n := k) (m := 2))
  rw [hblanks, words_append_cons hword (by decide), words_replicate_append]

/-- The words of a line of words are its cells. -/
theorem words_tableLine {widths : List ℕ} {cells : List (List Char)}
    (hwords : ∀ cell ∈ cells, IsWord cell) (hlength : widths.length = cells.length) :
    words (tableLine widths cells) = cells := by
  induction cells generalizing widths with
  | nil =>
    rw [List.length_eq_zero_iff.mp hlength]
    rfl
  | cons cell cells ih =>
    obtain ⟨hword, hrest⟩ := List.forall_mem_cons.mp hwords
    obtain ⟨width, widths, rfl⟩ := List.exists_cons_of_length_eq_add_one hlength
    have hlength := Nat.succ.inj hlength
    cases cells with
    | nil =>
      rw [List.length_eq_zero_iff.mp hlength, tableLine_singleton]
      exact words_append_replicate hword _
    | cons cell' cells =>
      obtain ⟨width', widths, rfl⟩ := List.exists_cons_of_length_eq_add_one hlength
      have htail := ih hrest hlength
      rw [tableLine_cons_cons, padRight, List.append_assoc, words_append_blanks hword, htail]

/-- A character other than the blank is in a line when it is in a cell. -/
theorem mem_tableLine {c : Char} (hc : c ≠ ' ') {widths : List ℕ} {cells : List (List Char)}
    (hlength : widths.length = cells.length) :
    c ∈ tableLine widths cells ↔ ∃ cell ∈ cells, c ∈ cell := by
  have hpad : ∀ width cell, c ∈ padRight width cell ↔ c ∈ cell := by
    intro width cell
    rw [padRight, List.mem_append, List.mem_replicate]
    simp [hc]
  induction cells generalizing widths with
  | nil =>
    rw [List.length_eq_zero_iff.mp hlength]
    simp [tableLine]
  | cons cell cells ih =>
    obtain ⟨width, widths, rfl⟩ := List.exists_cons_of_length_eq_add_one hlength
    have hlength := Nat.succ.inj hlength
    cases cells with
    | nil =>
      rw [List.length_eq_zero_iff.mp hlength, tableLine_singleton, hpad]
      simp
    | cons cell' cells =>
      obtain ⟨width', widths, rfl⟩ := List.exists_cons_of_length_eq_add_one hlength
      rw [tableLine_cons_cons, List.mem_append, hpad, List.mem_append]
      refine (or_congr Iff.rfl (or_congr Iff.rfl (ih hlength))).trans ?_
      simp [hc]

/-! ### The lines of a text -/

/-- What `print` makes of lines, one after the other. -/
def printedLines (lines : List (List Char)) : List Char := lines.flatMap fun line => line ++ ['\n']

theorem printedLines_cons (line : List Char) (lines : List (List Char)) :
    printedLines (line :: lines) = line ++ '\n' :: printedLines lines := by
  rw [printedLines, List.flatMap_cons, List.append_assoc]
  rfl

/-- A line is within the text it is printed in. -/
theorem infix_printedLines {line : List Char} {lines : List (List Char)} (h : line ∈ lines) :
    line <:+: printedLines lines := by
  obtain ⟨front, back, rfl⟩ := List.append_of_mem h
  rw [printedLines, List.flatMap_append, List.flatMap_cons, List.append_assoc line]
  exact List.infix_append' _ _ _

/-- The lines of a text are known from it. -/
theorem printedLines_inj {lines lines' : List (List Char)} (h : ∀ line ∈ lines, '\n' ∉ line)
    (h' : ∀ line ∈ lines', '\n' ∉ line) (heq : printedLines lines = printedLines lines') :
    lines = lines' := by
  induction lines generalizing lines' with
  | nil =>
    cases lines' with
    | nil => rfl
    | cons line' lines' =>
      rw [printedLines_cons] at heq
      exact absurd heq.symm (List.append_ne_nil_of_right_ne_nil _ (List.cons_ne_nil _ _))
  | cons line lines ih =>
    cases lines' with
    | nil =>
      rw [printedLines_cons] at heq
      exact absurd heq (List.append_ne_nil_of_right_ne_nil _ (List.cons_ne_nil _ _))
    | cons line' lines' =>
      obtain ⟨hline, hlines⟩ := List.forall_mem_cons.mp h
      obtain ⟨hline', hlines'⟩ := List.forall_mem_cons.mp h'
      rw [printedLines_cons, printedLines_cons] at heq
      obtain ⟨hfirst, hrest⟩ := append_cons_inj hline hline' heq
      rw [hfirst, ih hlines hlines' hrest]

theorem count_printedLines_cons (line : List Char) (lines : List (List Char)) :
    (printedLines (line :: lines)).count '\n' =
      line.count '\n' + (printedLines lines).count '\n' + 1 := by
  rw [printedLines_cons, List.count_append, List.count_cons_self, Nat.add_assoc]

theorem length_le_count_printedLines (lines : List (List Char)) :
    lines.length ≤ (printedLines lines).count '\n' := by
  induction lines with
  | nil => exact Nat.zero_le _
  | cons line lines ih =>
    rw [count_printedLines_cons, List.length_cons]
    omega

/-- A text has as many lines as were printed when none of them brings a line feed. -/
theorem count_printedLines_iff (lines : List (List Char)) :
    (printedLines lines).count '\n' = lines.length ↔ ∀ line ∈ lines, '\n' ∉ line := by
  induction lines with
  | nil => exact ⟨fun _ line hmem => absurd hmem List.not_mem_nil, fun _ => rfl⟩
  | cons line lines ih =>
    have hle := length_le_count_printedLines lines
    rw [count_printedLines_cons, List.length_cons, List.forall_mem_cons, ← ih,
      ← List.count_eq_zero]
    omega

/-- Printed lines of which others, unbroken and as many, make the same text are those lines. -/
theorem printedLines_eq_of_length {lines lines' : List (List Char)}
    (h' : ∀ line ∈ lines', '\n' ∉ line) (hlength : lines.length = lines'.length)
    (heq : printedLines lines = printedLines lines') : lines = lines' := by
  refine printedLines_inj ?_ h' heq
  rw [← count_printedLines_iff, heq, (count_printedLines_iff lines').mpr h', hlength]

end UdpAnalyzer
