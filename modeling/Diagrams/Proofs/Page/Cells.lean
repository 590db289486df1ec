import Diagrams.Page.Block
import Mathlib.Algebra.Ring.Nat
import Mathlib.Data.List.Forall2
import Mathlib.Data.List.Induction

/-!
# Cells of tables

In a written table a cell ends at a bar, unless the bar is escaped: it is a *boundary* when an even
number of backslashes stands before it (`boundaries`).

* `bars_append` — the bars of two texts are counted apart when the first one does not end in a
  backslash.
* `boundaries_cell` — text in a cell escapes its bars and not its backslashes. So its boundaries are
  the bars that are escaped in the text itself (`escapedBars`).
* `boundaries_row` — a row has the boundaries around its cells and those in them.
* `newline_notMem_row` — a row is one line when its cells are.
* `IsTable` — a table whose rows are made of plain cells and of texts (`IsRowOf`). It is even just
  when no text in it escapes a bar (`IsTable.even_iff`), and so when none holds a backslash
  (`escapedBars_eq_zero`).
-/

namespace Diagrams.Page

variable {cs ds : List Char} {odd : Bool}

/-! ### Bars -/

/-- How many backslashes stand at the end of a text. -/
def backslashes (cs : List Char) : Nat := (cs.reverse.takeWhile (· = '\\')).length

/-- How many bars of a text have an odd number of backslashes before them, or an even number. -/
def bars (odd : Bool) (cs : List Char) : Nat :=
  (List.range cs.length).countP fun i =>
    cs[i]? = some '|' ∧ decide (backslashes (cs.take i) % 2 = 1) = odd

/-- How often a cell ends in a line: the bars with an even number of backslashes before them. -/
def boundaries (line : String) : Nat := bars false line.toList

/-- The bars of a text that are escaped: those with an odd number of backslashes before them. -/
def escapedBars (text : String) : Nat := bars true text.toList

/-- In an empty text there are no backslashes. -/
@[simp] theorem backslashes_nil : backslashes [] = 0 := rfl

/-- One more character adds to the backslashes at the end, or ends them. -/
@[simp] theorem backslashes_concat (cs : List Char) (c : Char) :
    backslashes (cs ++ [c]) = if c = '\\' then backslashes cs + 1 else 0 := by
  unfold backslashes
  rw [List.reverse_concat]
  by_cases hc : c = '\\' <;> simp [hc]

/-- In an empty text there are no bars. -/
@[simp] theorem bars_nil : bars odd [] = 0 := rfl

/-- One more character is one more bar if it is one and stands behind the right number of
backslashes. -/
@[simp] theorem bars_concat (odd : Bool) (cs : List Char) (c : Char) :
    bars odd (cs ++ [c]) =
      bars odd cs + if c = '|' ∧ decide (backslashes cs % 2 = 1) = odd then 1 else 0 := by
  unfold bars
  rw [List.length_append, List.length_singleton, List.range_succ, List.countP_append]
  congr 1
  · apply List.countP_congr
    intro i hi
    have hlt := List.mem_range.mp hi
    rw [List.getElem?_append_left hlt, List.take_append_of_le_length (Nat.le_of_lt hlt)]
  · simp [List.countP_singleton]

/-- A text that does not end in a backslash changes nothing for the bars behind it. -/
theorem backslashes_append (h : backslashes cs = 0) (ds : List Char) :
    backslashes (cs ++ ds) = backslashes ds := by
  induction ds using List.reverseRecOn with
  | nil => rw [List.append_nil, h, backslashes_nil]
  | append_singleton ds d ih => rw [← List.append_assoc, backslashes_concat, backslashes_concat, ih]

/-- Bars are counted apart in two texts when the first one does not end with a backslash. -/
theorem bars_append (h : backslashes cs = 0) (ds : List Char) :
    bars odd (cs ++ ds) = bars odd cs + bars odd ds := by
  -- from the end, as what counts for a bar stands before it
  induction ds using List.reverseRecOn with
  | nil => rw [List.append_nil, bars_nil, Nat.add_zero]
  | append_singleton ds d ih =>
    rw [← List.append_assoc, bars_concat, bars_concat, ih, backslashes_append h, Nat.add_assoc]

/-- Where no bar stands none is counted. -/
theorem bars_eq_zero (h : '|' ∉ cs) : bars odd cs = 0 := by
  rw [bars, List.countP_eq_zero]
  rintro i - hi
  exact h (List.mem_of_getElem? (of_decide_eq_true hi).1)

/-- Where no backslash stands none is counted. -/
theorem backslashes_eq_zero (h : '\\' ∉ cs) : backslashes cs = 0 := by
  induction cs using List.reverseRecOn with
  | nil => rfl
  | append_singleton cs c _ =>
    rw [backslashes_concat, if_neg]
    exact fun hc => h (List.mem_append_right cs (List.mem_singleton.mpr hc.symm))

/-- A text without backslashes escapes no bar. -/
theorem escapedBars_eq_zero {text : String} (h : '\\' ∉ text.toList) : escapedBars text = 0 := by
  rw [escapedBars, bars, List.countP_eq_zero]
  rintro i - hi
  have hodd := of_decide_eq_true (of_decide_eq_true hi).2
  rw [backslashes_eq_zero fun hc => h (List.mem_of_mem_take hc)] at hodd
  cases hodd

/-! ### Text in cells -/

/-- The characters of a text in a cell. -/
def cellChars (cs : List Char) : List Char :=
  cs.flatMap fun c => if c = '|' then ['\\', '|'] else if c = '\n' then [' '] else [c]

/-- The characters of a cell are those of its text, one after the other. -/
theorem toList_cell (text : String) : (cell text).toList = cellChars text.toList :=
  String.toList_ofList

/-- The cell of an empty text is empty. -/
@[simp] theorem cellChars_nil : cellChars [] = [] := rfl

/-- One more character is written as it is, unless it is a bar or a newline. -/
theorem cellChars_concat (cs : List Char) (c : Char) :
    cellChars (cs ++ [c]) =
      cellChars cs ++ if c = '|' then ['\\', '|'] else if c = '\n' then [' '] else [c] := by
  simp [cellChars]

/-- Backslashes stay as they are. -/
theorem backslashes_cellChars (cs : List Char) : backslashes (cellChars cs) = backslashes cs := by
  induction cs using List.reverseRecOn with
  | nil => rfl
  | append_singleton cs c ih =>
    rw [cellChars_concat, backslashes_concat]
    split
    · rename_i hbar
      rw [List.append_cons, backslashes_concat, hbar]
      rfl
    · split
      · rename_i hnewline
        rw [backslashes_concat, hnewline]
        rfl
      · rw [backslashes_concat, ih]

/-- Each bar gets one backslash more. -/
theorem bars_cellChars (odd : Bool) (cs : List Char) : bars odd (cellChars cs) = bars (!odd) cs := by
  induction cs using List.reverseRecOn with
  | nil => rfl
  | append_singleton cs c ih =>
    rw [cellChars_concat, bars_concat]
    split
    · rename_i hbar
      -- one backslash more turns odd into even
      have hparity : decide ((backslashes cs + 1) % 2 = 1) = !decide (backslashes cs % 2 = 1) := by
        rw [← decide_not, decide_eq_decide]
        omega
      rw [List.append_cons, bars_concat, bars_concat, ih, backslashes_concat, if_pos rfl,
        backslashes_cellChars, hparity, hbar]
      cases odd <;> simp
    · rename_i hbar
      split
      · rename_i hnewline
        rw [bars_concat, ih, if_neg (by simp), if_neg (by simp [hnewline])]
      · rw [bars_concat, ih, if_neg (by simp [hbar]), if_neg (by simp [hbar])]

/-- In a cell the bars are boundaries that are escaped in the text itself. -/
@[simp] theorem boundaries_cell (text : String) : boundaries (cell text) = escapedBars text := by
  rw [boundaries, toList_cell, bars_cellChars]
  rfl

/-- A cell stands on one line. -/
theorem newline_notMem_cell (text : String) : '\n' ∉ (cell text).toList := by
  rw [toList_cell, cellChars, List.mem_flatMap]
  rintro ⟨c, -, hc⟩
  split at hc
  · exact absurd hc (by decide)
  · split at hc
    · exact absurd hc (by decide)
    · rename_i hne
      exact hne (List.mem_singleton.mp hc).symm

/-! ### Rows -/

/-- A row starts with its first cell. -/
theorem row_cons_cons (c c' : String) (rest : List String) :
    Block.row (c :: c' :: rest) = "| " ++ c ++ " " ++ Block.row (c' :: rest) := by
  simp only [Block.row, String.intercalate_cons_cons, String.append_assoc]
  rfl

/-- A row has a boundary before and after each cell, and those in its cells. -/
theorem boundaries_row {cells : List String} (h : cells ≠ []) :
    boundaries (Block.row cells) = cells.length + 1 + (cells.map boundaries).sum := by
  have hcell : ∀ c : String, ∀ ds, bars false (("| " ++ c ++ " ").toList ++ ds) =
      1 + boundaries c + bars false ds := by
    intro c ds
    have hopen : bars false (['|', ' '] ++ c.toList) = 1 + bars false c.toList :=
      bars_append (by decide) c.toList
    have hclose : bars false (['|', ' '] ++ c.toList ++ [' ']) = 1 + bars false c.toList := by
      rw [bars_concat, hopen, if_neg (by simp), Nat.add_zero]
    have hblank : backslashes (['|', ' '] ++ c.toList ++ [' ']) = 0 := by
      rw [backslashes_concat, if_neg (by decide)]
    have hchars : ("| " ++ c ++ " ").toList = ['|', ' '] ++ c.toList ++ [' '] := by
      rw [String.toList_append, String.toList_append]
      rfl
    rw [hchars, bars_append hblank, hclose]
    rfl
  induction cells with
  | nil => exact absurd rfl h
  | cons c rest ih =>
    cases rest with
    | nil =>
      have hrow : (Block.row [c]).toList = ("| " ++ c ++ " ").toList ++ ['|'] := by
        simp [Block.row]
      rw [boundaries, hrow, hcell]
      simp [bars]
      omega
    | cons c' rest =>
      rw [boundaries, row_cons_cons, String.toList_append, hcell, ← boundaries, ih (by simp)]
      simp
      omega

example : boundaries (Block.row ["1", cell "a|b"]) = 3 ∧
    boundaries (Block.row ["1", cell "a\\|b"]) = 4 := by decide

/-- A row is one line when no cell holds a newline. -/
theorem newline_notMem_row {cells : List String} (h : ∀ c ∈ cells, '\n' ∉ c.toList) :
    '\n' ∉ (Block.row cells).toList := by
  induction cells with
  | nil => decide
  | cons c rest ih =>
    have hc := h c List.mem_cons_self
    cases rest with
    | nil => simp [Block.row, hc]
    | cons c' rest =>
      rw [row_cons_cons]
      simp [hc, ih fun d hd => h d (List.mem_cons_of_mem c hd)]

/-! ### Tables -/

/-- The text is one cell of a line: it holds no boundary and no newline. -/
def IsCell (text : String) : Prop := '\n' ∉ text.toList ∧ boundaries text = 0

instance (text : String) : Decidable (IsCell text) := inferInstanceAs (Decidable (_ ∧ _))

/-- A text without bars and newlines is a cell as it stands. -/
theorem isCell_of_notMem {text : String} (hbar : '|' ∉ text.toList) (hnewline : '\n' ∉ text.toList) :
    IsCell text :=
  ⟨hnewline, bars_eq_zero hbar⟩

/-- The cell holds the text: it is no more than one line, and its boundaries are the escaped bars of
the text. -/
def Holds (cell text : String) : Prop :=
  '\n' ∉ cell.toList ∧ boundaries cell = escapedBars text

/-- The cell of a text holds the text. -/
theorem holds_cell (text : String) : Holds (cell text) text :=
  ⟨newline_notMem_cell text, boundaries_cell text⟩

/-- So does the cell with a dash in place of no text. -/
theorem holds_orDash (text : String) : Holds (orDash (cell text)) text := by
  unfold orDash
  split
  · rename_i hnone
    refine ⟨by decide, ?_⟩
    rw [← boundaries_cell, hnone]
    rfl
  · exact holds_cell text

/-- The row is made of plain cells and of cells that hold the texts, in their order. -/
inductive IsRowOf : List String → List String → Prop
  | nil : IsRowOf [] []
  | plain {c : String} {cells texts : List String} (hc : IsCell c) (rest : IsRowOf cells texts) :
    IsRowOf (c :: cells) texts
  | text {c t : String} {cells texts : List String} (hc : Holds c t) (rest : IsRowOf cells texts) :
    IsRowOf (c :: cells) (t :: texts)

/-- The boundaries in the cells of a row are the escaped bars of its texts. -/
theorem IsRowOf.sum_boundaries {cells texts : List String} (h : IsRowOf cells texts) :
    (cells.map boundaries).sum = (texts.map escapedBars).sum := by
  induction h with
  | nil => rfl
  | plain hc _ ih => rw [List.map_cons, List.sum_cons, hc.2, Nat.zero_add, ih]
  | text hc _ ih => rw [List.map_cons, List.sum_cons, hc.2, List.map_cons, List.sum_cons, ih]

/-- A row of cells stands on one line. -/
theorem IsRowOf.newline_notMem {cells texts : List String} (h : IsRowOf cells texts) :
    ∀ c ∈ cells, '\n' ∉ c.toList := by
  induction h with
  | nil => exact List.forall_mem_nil _
  | plain hc _ ih => exact List.forall_mem_cons.mpr ⟨hc.1, ih⟩
  | text hc _ ih => exact List.forall_mem_cons.mpr ⟨hc.1, ih⟩

/-- The rows of a table are single lines. The header's has a boundary before and after each of its
cells, and every other one has the same boundaries and one more for each bar that is escaped in the
texts of the row. -/
structure IsTable (header : List String) (rows texts : List (List String)) : Prop where
  /-- The header. -/
  heading : '\n' ∉ (Block.row header).toList ∧
    boundaries (Block.row header) = header.length + 1
  /-- The rows and their texts, one by one. -/
  rows : List.Forall₂ (fun cells texts => '\n' ∉ (Block.row cells).toList ∧
    boundaries (Block.row cells) = boundaries (Block.row header) + (texts.map escapedBars).sum)
    rows texts

/-- Rows of as many cells as the header form a table with it. -/
theorem IsTable.of_rows {header : List String} {rows texts : List (List String)}
    (hne : header ≠ []) (hheader : ∀ c ∈ header, IsCell c)
    (h : List.Forall₂ (fun cells texts => cells.length = header.length ∧ IsRowOf cells texts)
      rows texts) : IsTable header rows texts := by
  have hzero : (header.map boundaries).sum = 0 := by
    rw [List.sum_eq_zero_iff_forall_eq_nat, List.forall_mem_map]
    exact fun c hc => (hheader c hc).2
  have hcount : boundaries (Block.row header) = header.length + 1 := by
    rw [boundaries_row hne, hzero, Nat.add_zero]
  refine ⟨⟨newline_notMem_row fun c hc => (hheader c hc).1, hcount⟩, h.imp ?_⟩
  rintro cells texts ⟨hlength, hrow⟩
  have hcells : cells ≠ [] := by
    rintro rfl
    exact hne (List.length_eq_zero_iff.mp hlength.symm)
  refine ⟨newline_notMem_row hrow.newline_notMem, ?_⟩
  rw [boundaries_row hcells, hrow.sum_boundaries, hlength, hcount]

/-- All rows have as many cells as the header just when no text in them escapes a bar. -/
theorem IsTable.even_iff {header : List String} {rows texts : List (List String)}
    (h : IsTable header rows texts) :
    (∀ cells ∈ rows, boundaries (Block.row cells) = boundaries (Block.row header)) ↔
      ∀ ts ∈ texts, ∀ t ∈ ts, escapedBars t = 0 := by
  obtain ⟨-, hrows⟩ := h
  induction hrows with
  | nil => simp
  | cons hrow _ ih =>
    rw [List.forall_mem_cons, List.forall_mem_cons, ih, hrow.2, Nat.add_eq_left,
      List.sum_eq_zero_iff_forall_eq_nat, List.forall_mem_map]

end Diagrams.Page
