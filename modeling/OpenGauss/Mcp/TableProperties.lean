import OpenGauss.Mcp.Table
import Mathlib.Data.List.Forall2

/-! A boxed table tells what was put into it, whatever the names and values contain: only
blanks at the end of a cell are lost. -/

set_option autoImplicit false

namespace OpenGauss.Mcp.Output

open Driver OpenGauss.Types Json

/-! ### Cells -/

theorem bare_concat_blank (cell : Text) : bare (cell ++ [' ']) = bare cell :=
  List.rdropWhile_concat_pos _ _ _ rfl

theorem bare_replicate (cell : Text) (count : Nat) :
    bare (cell ++ List.replicate count ' ') = bare cell := by
  induction count with
  | zero => rw [List.replicate_zero, List.append_nil]
  | succ count ih => rw [List.replicate_succ', ← List.append_assoc, bare_concat_blank, ih]

theorem bare_padded (width : Nat) (cell : Text) : bare (padded width cell) = bare cell :=
  bare_replicate cell _

/-- Only blanks are lost. -/
theorem bare_split (cell : Text) : ∃ count, cell = bare cell ++ List.replicate count ' ' := by
  induction cell using List.reverseRecOn with
  | nil => exact ⟨0, rfl⟩
  | append_singleton cell last ih =>
      by_cases blank : last = ' '
      · obtain ⟨count, split⟩ := ih
        refine ⟨count + 1, ?_⟩
        rw [blank, bare_concat_blank, List.replicate_succ', ← List.append_assoc, ← split]
      · refine ⟨0, ?_⟩
        have kept : bare (cell ++ [last]) = cell ++ [last] :=
          List.rdropWhile_concat_neg _ _ _ (by simpa using blank)
        rw [kept, List.replicate_zero, List.append_nil]

theorem padded_bare {width : Nat} {cell : Text} (fits : cell.length ≤ width) :
    padded width cell = bare cell ++ List.replicate (width - (bare cell).length) ' ' := by
  obtain ⟨count, split⟩ := bare_split cell
  have size := congrArg List.length split
  rw [List.length_append, List.length_replicate] at size
  rw [padded]
  nth_rewrite 1 [split]
  rw [List.append_assoc, ← List.replicate_add]
  congr 2
  omega

theorem padded_inj {width : Nat} {first second : Text} (fits : first.length ≤ width)
    (others : second.length ≤ width) :
    padded width first = padded width second ↔ bare first = bare second := by
  refine ⟨fun same => ?_, fun same => ?_⟩
  · rw [← bare_padded width first, same, bare_padded]
  · rw [padded_bare fits, padded_bare others, same]

theorem length_padded {width : Nat} {cell : Text} (fits : cell.length ≤ width) :
    (padded width cell).length = width := by
  rw [padded, List.length_append, List.length_replicate]
  omega

/-! ### Rows -/

/-- The cells of a row fit into the columns. -/
abbrev Fits (widths : List Nat) (cells : List Text) : Prop :=
  List.Forall₂ (fun width cell => cell.length ≤ width) widths cells

theorem makeCells_fits {widths : List Nat} {cells : List Text} (fits : Fits widths cells) :
    ∃ made, makeCells widths cells = some made ∧ made.map List.length = widths := by
  induction fits with
  | nil => exact ⟨[], rfl, rfl⟩
  | cons first others ih =>
      obtain ⟨made, taken, sizes⟩ := ih
      exact ⟨_, by rw [makeCells, taken]; rfl, by rw [List.map_cons, length_padded first, sizes]⟩

theorem makeCells_inj {widths : List Nat} {first second : List Text} (fits : Fits widths first)
    (others : Fits widths second) :
    makeCells widths first = makeCells widths second ↔ first.map bare = second.map bare := by
  induction fits generalizing second with
  | nil =>
      cases others
      exact iff_of_true rfl rfl
  | @cons width cell widths cells small fits ih =>
      cases others with
      | @cons _ other _ more fit others =>
          obtain ⟨made, taken, -⟩ := makeCells_fits fits
          obtain ⟨rest, read, -⟩ := makeCells_fits others
          have tails := ih others
          have heads := padded_inj small fit
          rw [taken, read] at tails
          simp only [makeCells, taken, read, Option.map_some, Option.some.injEq, List.cons.injEq,
            List.map_cons] at tails ⊢
          rw [heads, tails]

theorem intercalate_cons (separator cell next : Text) (cells : List Text) :
    separator.intercalate (cell :: next :: cells) =
      cell ++ (separator ++ separator.intercalate (next :: cells)) := by
  simp [List.intercalate]

/-- Where the sizes of the cells are known, the row tells them. -/
theorem intercalate_inj {separator behind later : Text} {first second : List Text}
    (sizes : first.map List.length = second.map List.length)
    (same : separator.intercalate first ++ behind = separator.intercalate second ++ later) :
    first = second ∧ behind = later := by
  induction first generalizing second with
  | nil =>
      obtain rfl := List.map_eq_nil_iff.mp sizes.symm
      exact ⟨rfl, same⟩
  | cons cell cells ih =>
      obtain ⟨other, others, rfl, size, rests⟩ := List.map_eq_cons_iff.mp sizes.symm
      cases cells with
      | nil =>
          obtain rfl := List.map_eq_nil_iff.mp rests
          have apart := List.append_inj (by simpa [List.intercalate] using same) size.symm
          exact ⟨by rw [apart.1], apart.2⟩
      | cons next cells =>
          obtain ⟨after, more, rfl, -, -⟩ := List.map_eq_cons_iff.mp rests
          simp only [intercalate_cons, List.append_assoc] at same
          obtain ⟨rfl, barred⟩ := List.append_inj same size.symm
          obtain ⟨tails, rest⟩ := ih rests.symm (List.append_cancel_left barred)
          exact ⟨by rw [tails], rest⟩

theorem formatRow_inj {behind later : Text} {first second : List Text}
    (sizes : first.map List.length = second.map List.length)
    (same : formatRow first ++ behind = formatRow second ++ later) :
    first = second ∧ behind = later := by
  simp only [formatRow, List.append_assoc] at same
  obtain ⟨cells, rest⟩ := intercalate_inj sizes (List.append_cancel_left same)
  exact ⟨cells, List.append_cancel_left rest⟩

/-! ### Borders -/

theorem replicate_inj {bar : Char} {count size : Nat} {first second : Text}
    (stops : first.head? ≠ some bar) (ends : second.head? ≠ some bar)
    (same : List.replicate count bar ++ first = List.replicate size bar ++ second) :
    count = size ∧ first = second := by
  induction count generalizing size with
  | zero =>
      cases size with
      | zero => exact ⟨rfl, same⟩
      | succ size =>
          obtain rfl : first = bar :: (List.replicate size bar ++ second) := same
          exact absurd rfl stops
  | succ count ih =>
      cases size with
      | zero =>
          obtain rfl : bar :: (List.replicate count bar ++ first) = second := same
          exact absurd rfl ends
      | succ size =>
          obtain ⟨counts, rest⟩ := ih (List.cons.inj same).2
          exact ⟨congrArg (· + 1) counts, rest⟩

/-- The top of a box tells the widths. -/
theorem bars_inj {first second : List Nat} {behind later : Text} (some : first ≠ [])
    (more : second ≠ [])
    (same : ['┬'].intercalate (first.map fun width => List.replicate (width + 2) '─') ++
        '┐' :: behind =
      ['┬'].intercalate (second.map fun width => List.replicate (width + 2) '─') ++ '┐' :: later) :
    first = second ∧ behind = later := by
  induction first generalizing second with
  | nil => exact absurd rfl some
  | cons width widths ih =>
      obtain ⟨other, others, rfl⟩ := List.exists_cons_of_ne_nil more
      cases widths with
      | nil =>
          cases others with
          | nil =>
              simp only [List.map_cons, List.map_nil, List.intercalate_singleton] at same
              obtain ⟨count, rest⟩ := replicate_inj (by simp) (by simp) same
              exact ⟨by rw [Nat.add_right_cancel count], (List.cons.inj rest).2⟩
          | cons next others =>
              simp only [List.map_cons, List.map_nil, List.intercalate_singleton,
                intercalate_cons, List.append_assoc] at same
              have apart := (replicate_inj (by simp) (by simp) same).2
              exact absurd (List.cons.inj apart).1 (by decide)
      | cons next widths =>
          cases others with
          | nil =>
              simp only [List.map_cons, List.map_nil, List.intercalate_singleton,
                intercalate_cons, List.append_assoc] at same
              have apart := (replicate_inj (by simp) (by simp) same).2
              exact absurd (List.cons.inj apart).1 (by decide)
          | cons after others =>
              simp only [List.map_cons, intercalate_cons, List.append_assoc] at same
              obtain ⟨count, rest⟩ := replicate_inj (by simp) (by simp) same
              obtain ⟨tails, ended⟩ := ih (List.cons_ne_nil _ _) (List.cons_ne_nil _ _)
                (List.append_cancel_left rest)
              exact ⟨by rw [Nat.add_right_cancel count, tails], ended⟩

/-! ### Widths -/

theorem fits_lengths (cells : List Text) : Fits (cells.map List.length) cells :=
  List.forall₂_map_left_iff.mpr (List.forall₂_same.mpr fun _ _ => Nat.le_refl _)

theorem widen_fits {widths : List Nat} {cells : List Text} (many : cells.length = widths.length) :
    Fits (widen widths cells) cells := by
  induction cells generalizing widths with
  | nil =>
      obtain rfl := List.eq_nil_of_length_eq_zero many.symm
      exact .nil
  | cons cell cells ih =>
      obtain ⟨width, widths, rfl⟩ := List.exists_cons_of_length_eq_add_one many.symm
      exact .cons (Nat.le_max_right ..) (ih (Nat.succ.inj many))

theorem Fits.widen {widths : List Nat} {cells : List Text} (fits : Fits widths cells)
    (others : List Text) : Fits (Output.widen widths others) cells := by
  induction fits generalizing others with
  | nil => cases others <;> exact .nil
  | cons small fits ih =>
      cases others with
      | nil => exact .cons small fits
      | cons other others => exact .cons (Nat.le_trans small (Nat.le_max_left ..)) (ih others)

theorem Fits.foldl {widths : List Nat} {cells : List Text} (fits : Fits widths cells)
    (rows : List (List Text)) : Fits (rows.foldl Output.widen widths) cells := by
  induction rows generalizing widths with
  | nil => exact fits
  | cons row rows ih => exact ih (fits.widen row)

theorem foldl_fits {columns : List Text} {widths : List Nat} {rows : List (List Text)}
    (fits : Fits widths columns) (rectangular : ∀ row ∈ rows, row.length = columns.length) :
    ∀ row ∈ rows, Fits (rows.foldl Output.widen widths) row := by
  induction rows generalizing widths with
  | nil => exact fun row member => absurd member List.not_mem_nil
  | cons row rows ih =>
      obtain ⟨first, others⟩ := List.forall_mem_cons.mp rectangular
      have wide : Fits (Output.widen widths row) row :=
        widen_fits (first.trans fits.length_eq.symm)
      exact List.forall_mem_cons.mpr ⟨wide.foldl rows, ih (fits.widen row) others⟩

namespace Grid

variable (packages : Packages) (grid : Grid)

theorem fits_columns : Fits (grid.widths packages) grid.columns :=
  (fits_lengths grid.columns).foldl _

theorem fits_rows : ∀ row ∈ valueCells packages grid.rows, Fits (grid.widths packages) row := by
  refine foldl_fits (fits_lengths grid.columns) fun row member => ?_
  obtain ⟨values, within, rfl⟩ := List.mem_map.mp member
  rw [List.length_map]
  exact grid.rectangular values within

theorem widths_ne_nil : grid.widths packages ≠ [] := by
  have size := (grid.fits_columns packages).length_eq
  intro empty
  rw [empty] at size
  exact grid.some (List.eq_nil_of_length_eq_zero size.symm)

end Grid

/-! ### Tables -/

theorem mapM_makeCells {widths : List Nat} {rows : List (List Text)}
    (fits : ∀ row ∈ rows, Fits widths row) :
    ∃ lines, rows.mapM (makeCells widths) = some lines ∧
      List.Forall₂ (fun row line => makeCells widths row = some line) rows lines ∧
        ∀ line ∈ lines, line.map List.length = widths := by
  induction rows with
  | nil => exact ⟨[], rfl, .nil, fun line member => absurd member List.not_mem_nil⟩
  | cons row rows ih =>
      obtain ⟨first, others⟩ := List.forall_mem_cons.mp fits
      obtain ⟨made, taken, sizes⟩ := makeCells_fits first
      obtain ⟨lines, mapped, each, all⟩ := ih others
      exact ⟨made :: lines, by simp [taken, mapped], .cons taken each,
        List.forall_mem_cons.mpr ⟨sizes, all⟩⟩

/-- The text of a table, by its widths and its cells. -/
def boxed (widths : List Nat) (header : List Text) (lines : List (List Text)) : Text :=
  border '┌' '┬' '┐' widths ++ '\n' :: (formatRow header ++ '\n' ::
    (border '├' '┼' '┤' widths ++ '\n' :: ((lines.flatMap fun line => formatRow line ++ ['\n']) ++
      (border '└' '┴' '┘' widths ++ ['\n']))))

theorem formatTableBoxed_grid (packages : Packages) (grid : Grid) :
    ∃ header lines, makeCells (grid.widths packages) grid.columns = some header ∧
      header.map List.length = grid.widths packages ∧
      List.Forall₂ (fun row line => makeCells (grid.widths packages) row = some line)
        (valueCells packages grid.rows) lines ∧
      (∀ line ∈ lines, line.map List.length = grid.widths packages) ∧
      formatTableBoxed packages grid.columns grid.rows =
        some (boxed (grid.widths packages) header lines) := by
  obtain ⟨header, named, sizes⟩ := makeCells_fits (grid.fits_columns packages)
  obtain ⟨lines, mapped, each, all⟩ := mapM_makeCells (grid.fits_rows packages)
  refine ⟨header, lines, named, sizes, each, all, ?_⟩
  have some : grid.columns.isEmpty = false := by simp [grid.some]
  rw [Grid.widths] at named mapped
  simp only [formatTableBoxed, some, named, mapped]
  rfl

/-! ### Rows that are too long -/

theorem makeCells_none {widths : List Nat} {cells : List Text} :
    makeCells widths cells = none ↔ widths.length < cells.length := by
  induction cells generalizing widths with
  | nil => simp [makeCells]
  | cons cell cells ih =>
      cases widths with
      | nil => simp [makeCells]
      | cons width widths => simp [makeCells, ih]

theorem length_widen (widths : List Nat) (cells : List Text) :
    (widen widths cells).length = widths.length := by
  induction widths generalizing cells with
  | nil => cases cells <;> rfl
  | cons width widths ih =>
      cases cells with
      | nil => rfl
      | cons cell cells => exact congrArg (· + 1) (ih cells)

theorem length_colWidths (columns : List Text) (cells : List (List Text)) :
    (colWidths columns cells).length = columns.length := by
  suffices all : ∀ widths : List Nat, (cells.foldl widen widths).length = widths.length by
    rw [colWidths, all, List.length_map]
  induction cells with
  | nil => exact fun widths => rfl
  | cons row rows ih => exact fun widths => (ih _).trans (length_widen widths row)

theorem mapM_none {widths : List Nat} {rows : List (List Text)} :
    rows.mapM (makeCells widths) = none ↔ ∃ row ∈ rows, widths.length < row.length := by
  induction rows with
  | nil => simp
  | cons row rows ih =>
      simp only [List.mem_cons, exists_eq_or_imp]
      rw [← ih, ← makeCells_none, List.mapM_cons]
      cases makeCells widths row with
      | none => simp
      | some line => cases rows.mapM (makeCells widths) <;> simp

/-- What both tables do with the widths, and where it stops. -/
theorem lines_none {columns : List Text} {cells : List (List Text)}
    {finish : List Text → List (List Text) → Text} :
    (do
        let header ← makeCells (colWidths columns cells) columns
        let lines ← cells.mapM (makeCells (colWidths columns cells))
        return finish header lines) = none ↔
      ∃ row ∈ cells, columns.length < row.length := by
  rw [← length_colWidths columns cells, ← mapM_none]
  cases made : makeCells (colWidths columns cells) columns with
  | none =>
      have short := makeCells_none.mp made
      rw [length_colWidths] at short
      exact absurd short (Nat.lt_irrefl _)
  | some header => cases cells.mapM (makeCells (colWidths columns cells)) <;> simp

/-- Both tables panic on the same results: those with a row that is longer than the columns. -/
theorem formatTable_none (packages : Packages) (columns : List Text) (rows : List (List Value)) :
    (formatTable packages columns rows = none ↔
        columns ≠ [] ∧ ∃ row ∈ rows, columns.length < row.length) ∧
      (formatTableBoxed packages columns rows = none ↔
        columns ≠ [] ∧ ∃ row ∈ rows, columns.length < row.length) := by
  cases columns with
  | nil => simp [formatTable, formatTableBoxed]
  | cons name names =>
      have long : (∃ row ∈ valueCells packages rows, (name :: names).length < row.length) ↔
          ∃ row ∈ rows, (name :: names).length < row.length := by simp [valueCells]
      have plain := List.cons_ne_nil name names
      constructor
      · rw [← long, and_iff_right plain]
        exact lines_none
      · rw [← long, and_iff_right plain]
        exact lines_none

/-! ### What a table tells -/

/-- Lines of one size are told apart by their places. -/
theorem lines_inj {widths : List Nat} {first second : List (List Text)} {bottom : Text}
    (sizes : ∀ line ∈ first, line.map List.length = widths)
    (others : ∀ line ∈ second, line.map List.length = widths)
    (same : (first.flatMap fun line => formatRow line ++ ['\n']) ++ bottom =
      (second.flatMap fun line => formatRow line ++ ['\n']) ++ bottom) : first = second := by
  induction first generalizing second with
  | nil =>
      cases second with
      | nil => rfl
      | cons line lines =>
          have size := congrArg List.length same
          simp [formatRow] at size
          omega
  | cons line lines ih =>
      cases second with
      | nil =>
          have size := congrArg List.length same
          simp [formatRow] at size
          omega
      | cons other more =>
          obtain ⟨first, rests⟩ := List.forall_mem_cons.mp sizes
          obtain ⟨second, tails⟩ := List.forall_mem_cons.mp others
          simp only [List.flatMap_cons, List.append_assoc] at same
          obtain ⟨rfl, below⟩ := formatRow_inj (first.trans second.symm) same
          rw [ih rests tails (List.append_cancel_left below)]

theorem boxed_inj {first second : List Nat} {header names : List Text}
    {lines more : List (List Text)} (some : first ≠ []) (others : second ≠ [])
    (named : header.map List.length = first) (called : names.map List.length = second)
    (sizes : ∀ line ∈ lines, line.map List.length = first)
    (measured : ∀ line ∈ more, line.map List.length = second)
    (same : boxed first header lines = boxed second names more) :
    first = second ∧ header = names ∧ lines = more := by
  simp only [boxed, border, List.cons_append, List.append_assoc] at same
  obtain ⟨rfl, below⟩ := bars_inj some others (List.cons.inj same).2
  obtain ⟨rfl, under⟩ := formatRow_inj (named.trans called.symm) (List.cons.inj below).2
  have body := List.append_cancel_left (List.cons.inj (List.cons.inj under).2).2
  exact ⟨rfl, rfl, lines_inj sizes measured (List.cons.inj (List.cons.inj body).2).2⟩

/-- Rows are told by their lines up to the blanks at the ends of cells. -/
theorem rows_inj {widths : List Nat} {rows others lines : List (List Text)}
    (fits : ∀ row ∈ rows, Fits widths row) (fit : ∀ row ∈ others, Fits widths row)
    (made : List.Forall₂ (fun row line => makeCells widths row = some line) rows lines) :
    List.Forall₂ (fun row line => makeCells widths row = some line) others lines ↔
      rows.map (·.map bare) = others.map (·.map bare) := by
  induction made generalizing others with
  | nil =>
      cases others with
      | nil => exact iff_of_true .nil rfl
      | cons row others => exact iff_of_false (fun each => by cases each) (by simp)
  | @cons row line rows lines first each ih =>
      obtain ⟨small, fits⟩ := List.forall_mem_cons.mp fits
      cases others with
      | nil => exact iff_of_false (fun each => by cases each) (by simp)
      | cons other others =>
          obtain ⟨fitted, fit⟩ := List.forall_mem_cons.mp fit
          have heads := makeCells_inj small fitted
          rw [List.forall₂_cons, ih fits fit, List.map_cons, List.map_cons, List.cons.injEq,
            ← heads, first]
          exact and_congr_left fun _ => eq_comm

/-- A boxed table can be made of every result, and two results give the same text exactly
when they have the same widths, and the same names and values up to the blanks at their
ends. Bars and ends of lines inside a name or a value are never taken for those of the box. -/
theorem formatTableBoxed_faithful (packages : Packages) (first second : Grid) :
    (formatTableBoxed packages first.columns first.rows).isSome ∧
      (formatTableBoxed packages first.columns first.rows =
          formatTableBoxed packages second.columns second.rows ↔
        first.widths packages = second.widths packages ∧
          first.shown packages = second.shown packages) := by
  obtain ⟨header, lines, named, measured, each, all, table⟩ := formatTableBoxed_grid packages first
  obtain ⟨names, more, called, sizes, others, every, other⟩ := formatTableBoxed_grid packages second
  refine ⟨by rw [table]; rfl, ?_⟩
  rw [table, other, Option.some.injEq]
  constructor
  · intro same
    obtain ⟨widths, rfl, rfl⟩ := boxed_inj (first.widths_ne_nil packages)
      (second.widths_ne_nil packages) measured sizes all every same
    have fits := second.fits_rows packages
    have columns := second.fits_columns packages
    rw [← widths] at called others fits columns
    refine ⟨widths, Prod.ext ?_ ?_⟩
    · exact (makeCells_inj (first.fits_columns packages) columns).mp (named.trans called.symm)
    · exact (rows_inj (first.fits_rows packages) fits each).mp others
  · rintro ⟨widths, shown⟩
    obtain ⟨columns, rows⟩ := Prod.mk.inj shown
    have fits := second.fits_rows packages
    have fitted := second.fits_columns packages
    rw [← widths] at called others fits fitted ⊢
    have heads := (makeCells_inj (first.fits_columns packages) fitted).mpr columns
    obtain rfl := Option.some.inj (named.symm.trans (heads.trans called))
    have tails := (rows_inj (first.fits_rows packages) fits each).mpr rows
    rw [List.right_unique_forall₂' (fun _ _ _ one two => Option.some.inj (one.symm.trans two))
      others tails]

set_option maxRecDepth 2000 in
example (packages : Packages) :
    formatTableBoxed packages ["│".toList] [[.string "7".toList]] =
      some "┌───┐\n│ │ │\n├───┤\n│ 7 │\n└───┘\n".toList := by
  rfl

end OpenGauss.Mcp.Output
