import TargetSpans.Selection.Delimiters
import TargetSpans.Selection.Rows
import TargetSpans.Proofs.DocumentIndex

/-!
# Questions about existing rows

A text answers every question about a row that it has.  A range whose ends lie on existing rows,
in whatever column, therefore has a text, delimiters, and lines and a paragraph around it.  This is
all that the steps of a resolution need to know of a range: columns may be out of date, or lie
between the two characters of a line break.
-/

namespace TargetSpans

namespace Text

theorem of_separatorRun?_eq_some {t : Text} {run : Nat} (found : separatorRun? t = some run) :
    run = (t.takeWhile isListSeparator).length ∧ 0 < run ∧ run < t.length := by
  have short : (t.takeWhile isListSeparator).length ≤ t.length :=
    (List.takeWhile_sublist _).length_le
  simp only [separatorRun?] at found
  split at found
  case isTrue => cases found
  case isFalse proper =>
    cases found
    omega

end Text

/-- The first column of a line that is not blank is at most its length. -/
theorem Line.indent_le_length (l : Line) : l.indent ≤ l.length :=
  (List.takeWhile_sublist isBlank).length_le

namespace Document

/-- Both ends of a range lie on rows that a document has. -/
structure HasRows (d : Document) (r : Range) : Prop where
  anchor_row : r.anchor.row < d.lineCount
  head_row : r.head.row < d.lineCount

namespace HasRows

variable {d : Document} {r : Range}

theorem start_row (rows : d.HasRows r) : r.start.row < d.lineCount := by
  rcases r.start_eq_anchor_or_head with equal | equal <;> rw [equal]
  · exact rows.anchor_row
  · exact rows.head_row

theorem stop_row (rows : d.HasRows r) : r.stop.row < d.lineCount := by
  rcases r.stop_eq_anchor_or_head with equal | equal <;> rw [equal]
  · exact rows.anchor_row
  · exact rows.head_row

theorem toward (rows : d.HasRows r) (direction : Direction) :
    d.HasRows (r.toward direction) := by
  unfold Range.toward
  split
  · exact rows
  · exact ⟨rows.head_row, rows.anchor_row⟩

end HasRows

variable {d : Document}

theorem hasRows_of_contains {r : Range} (anchor : d.contains r.anchor = true)
    (head : d.contains r.head = true) : d.HasRows r :=
  ⟨row_lt_of_contains anchor, row_lt_of_contains head⟩

/-- Wherever two indices lead to, the rows exist. -/
theorem hasRows_positions (i j : Nat) : d.HasRows ⟨d.position i, d.position j⟩ :=
  ⟨position_row_lt i, position_row_lt j⟩

theorem exists_line? {row : Nat} (inside : row < d.lineCount) : ∃ l, d.line? row = some l :=
  ⟨d.lines.get ⟨row, inside⟩, List.getElem?_eq_getElem inside⟩

theorem row_lt_of_line? {row : Nat} {l : Line} (found : d.line? row = some l) :
    row < d.lineCount :=
  (List.getElem?_eq_some_iff.mp found).1

theorem lineEnd?_of_line? {row : Nat} {l : Line} (found : d.line? row = some l) :
    d.lineEnd? row = some ⟨row, l.length⟩ := by
  rw [lineEnd?, found]
  rfl

/-- The text of a range between existing rows: there the later end has the larger index. -/
theorem exists_textOf? {r : Range} (rows : d.HasRows r) : ∃ t, d.textOf? r = some t := by
  have ordered : d.index r.start ≤ d.index r.stop := index_mono r.start_le_stop rows.stop_row
  exact ⟨_, if_pos ordered⟩

/-- The text of a range depends on its bounds only. -/
theorem textOf?_congr {r s : Range} (same : r.SameBounds s) : d.textOf? r = d.textOf? s := by
  simp only [textOf?, same.start, same.stop]

/-! ## Delimiters on a line -/

/-- The run before a position never reaches further left than the row does. -/
theorem exists_separatorsBefore? {p : Position} (inside : p.row < d.lineCount) :
    ∃ l, d.line? p.row = some l ∧
      d.separatorsBefore? p =
        some ((Text.separatorRun? (l.content.take p.col).reverse).map
          fun run => ⟨⟨p.row, p.col - run⟩, p⟩) := by
  obtain ⟨l, found⟩ := exists_line? inside
  refine ⟨l, found, ?_⟩
  simp only [separatorsBefore?, found, Option.bind_eq_bind, Option.bind_some]
  cases run : Text.separatorRun? (l.content.take p.col).reverse with
  | none => rfl
  | some length =>
      have short := (Text.of_separatorRun?_eq_some run).2.2
      rw [List.length_reverse, List.length_take] at short
      have left : p.left? length = some ⟨p.row, p.col - length⟩ := if_pos (by omega)
      simp [left]

theorem exists_separatorsAfter? {p : Position} (inside : p.row < d.lineCount) :
    ∃ l, d.line? p.row = some l ∧
      d.separatorsAfter? p =
        some ((Text.separatorRun? (l.content.drop p.col)).map fun run => ⟨p, p.right run⟩) := by
  obtain ⟨l, found⟩ := exists_line? inside
  refine ⟨l, found, ?_⟩
  simp [separatorsAfter?, found]

/-- The delimiter before a position ends at it and stays on its row. -/
theorem separatorsBefore?_touches {p : Position} (inside : p.row < d.lineCount)
    {delimiter : Range} (found : d.separatorsBefore? p = some (some delimiter)) :
    delimiter.stop = p ∧ d.HasRows delimiter := by
  obtain ⟨l, _, equal⟩ := exists_separatorsBefore? inside
  rw [equal, Option.some.injEq, Option.map_eq_some_iff] at found
  obtain ⟨run, _, rfl⟩ := found
  exact ⟨Range.stop_mk_of_le (Position.mk_le_mk (Nat.sub_le _ _)), ⟨inside, inside⟩⟩

/-- The delimiter after a position starts at it and stays on its row. -/
theorem separatorsAfter?_touches {p : Position} (inside : p.row < d.lineCount)
    {delimiter : Range} (found : d.separatorsAfter? p = some (some delimiter)) :
    delimiter.start = p ∧ d.HasRows delimiter := by
  obtain ⟨l, _, equal⟩ := exists_separatorsAfter? inside
  rw [equal, Option.some.injEq, Option.map_eq_some_iff] at found
  obtain ⟨run, _, rfl⟩ := found
  exact ⟨Range.start_mk_of_le (Position.mk_le_mk (Nat.le_add_right _ _)), ⟨inside, inside⟩⟩

/-- What is guessed of the delimiters around a range: either there are none and nothing is known,
or the text of the nearest one is the literal of a list. -/
theorem exists_inferDelimiters? {r : Range} (rows : d.HasRows r) :
    ∃ leading trailing, d.separatorsBefore? r.start = some leading ∧
      d.separatorsAfter? r.stop = some trailing ∧
      (((trailing <|> leading) = none ∧ d.inferDelimiters? r = some {}) ∨
        ∃ nearest literal, (trailing <|> leading) = some nearest ∧
          d.textOf? nearest = some literal ∧
          d.inferDelimiters? r = some (.ofDelimiters literal leading trailing)) := by
  obtain ⟨_, _, before⟩ := exists_separatorsBefore? rows.start_row
  obtain ⟨_, _, after⟩ := exists_separatorsAfter? rows.stop_row
  generalize Option.map _ _ = leading at before
  generalize Option.map _ _ = trailing at after
  refine ⟨leading, trailing, before, after, ?_⟩
  cases trailing with
  | some delimiter =>
      obtain ⟨literal, text⟩ := exists_textOf? (separatorsAfter?_touches rows.stop_row after).2
      exact Or.inr ⟨delimiter, literal, rfl, text, by simp [inferDelimiters?, before, after, text]⟩
  | none =>
      cases leading with
      | some delimiter =>
          obtain ⟨literal, text⟩ :=
            exists_textOf? (separatorsBefore?_touches rows.start_row before).2
          exact Or.inr
            ⟨delimiter, literal, rfl, text, by simp [inferDelimiters?, before, after, text]⟩
      | none => exact Or.inl ⟨rfl, by simp [inferDelimiters?, before, after]⟩

theorem exists_inferDelimiters?_eq_some {r : Range} (inside : d.HasRows r) :
    ∃ c, d.inferDelimiters? r = some c := by
  obtain ⟨_, _, _, _, ⟨_, equal⟩ | ⟨_, _, _, _, equal⟩⟩ := exists_inferDelimiters? inside
  · exact ⟨_, equal⟩
  · exact ⟨_, equal⟩

/-! ## Whole rows -/

theorem exists_rowRange? {first last : Nat} (firstInside : first < d.lineCount)
    (lastInside : last < d.lineCount) :
    ∃ top bottom, d.line? first = some top ∧ d.line? last = some bottom ∧
      d.rowRange? first last = some ⟨⟨first, top.indent⟩, ⟨last, bottom.length⟩⟩ := by
  obtain ⟨top, foundTop⟩ := exists_line? firstInside
  obtain ⟨bottom, foundBottom⟩ := exists_line? lastInside
  refine ⟨top, bottom, foundTop, foundBottom, ?_⟩
  simp [rowRange?, foundTop, lineEnd?_of_line? foundBottom]

theorem rowRange?_eq_some {first last : Nat} {rows : Range}
    (found : d.rowRange? first last = some rows) :
    ∃ top bottom, d.line? first = some top ∧ d.line? last = some bottom ∧
      rows = ⟨⟨first, top.indent⟩, ⟨last, bottom.length⟩⟩ := by
  cases foundTop : d.line? first with
  | none => simp [rowRange?, foundTop] at found
  | some top =>
      cases foundBottom : d.line? last with
      | none => simp [rowRange?, foundTop, lineEnd?, foundBottom] at found
      | some bottom =>
          refine ⟨top, bottom, rfl, rfl, ?_⟩
          simpa [rowRange?, foundTop, lineEnd?_of_line? foundBottom] using found.symm

theorem hasRows_of_rowRange? {first last : Nat} {rows : Range}
    (found : d.rowRange? first last = some rows) : d.HasRows rows := by
  obtain ⟨top, bottom, foundTop, foundBottom, rfl⟩ := rowRange?_eq_some found
  exact ⟨row_lt_of_line? foundTop, row_lt_of_line? foundBottom⟩

/-- The bounds of a selection of rows. -/
theorem bounds_of_rowRange? {first last : Nat} {rows : Range} (ordered : first ≤ last)
    (found : d.rowRange? first last = some rows) :
    ∃ top bottom, d.line? first = some top ∧ d.line? last = some bottom ∧
      rows.start = ⟨first, top.indent⟩ ∧ rows.stop = ⟨last, bottom.length⟩ := by
  obtain ⟨top, bottom, foundTop, foundBottom, rfl⟩ := rowRange?_eq_some found
  have le : (⟨first, top.indent⟩ : Position) ≤ ⟨last, bottom.length⟩ := by
    rcases Nat.lt_or_eq_of_le ordered with above | rfl
    · exact Position.le_of_row_lt above
    · rw [foundTop, Option.some.injEq] at foundBottom
      subst foundBottom
      exact Position.mk_le_mk top.indent_le_length
  exact ⟨top, bottom, foundTop, foundBottom, Range.start_mk_of_le le, Range.stop_mk_of_le le⟩

/-- What the delimiters of a selection of rows are, given the rows that they reach. -/
theorem of_rowDelimiters?_eq_some {r : Range} {above below : Option Nat} {c : DelimiterContext}
    (found : d.rowDelimiters? r above below = some c) :
    (above = none ∧ c.leading = none ∨ ∃ row line, above = some row ∧ d.line? row = some line ∧
      c.leading = some ⟨⟨row, line.length⟩, r.start⟩) ∧
    c.trailing = below.map (fun row => ⟨r.stop, ⟨row, 0⟩⟩) ∧
    ∃ bottom, d.line? r.stop.row = some bottom ∧
      c.outer = some ⟨⟨r.start.row, 0⟩, ⟨r.stop.row, bottom.length⟩⟩ := by
  simp only [rowDelimiters?, fullRows?, lineEnd?, Option.bind_eq_bind, Option.bind_eq_some_iff,
    Option.pure_def, Option.some.injEq, Option.map_eq_some_iff] at found
  obtain ⟨leading, aboveEnd, _, ⟨_, ⟨bottom, bottomLine, rfl⟩, rfl⟩, rfl⟩ := found
  refine ⟨?_, rfl, bottom, bottomLine, rfl⟩
  cases above with
  | none =>
      cases aboveEnd
      exact Or.inl ⟨rfl, rfl⟩
  | some row =>
      cases found : d.line? row with
      | none => simp [found] at aboveEnd
      | some line =>
          have isLeading : leading = some ⟨⟨row, line.length⟩, r.start⟩ := by
            simpa [found] using aboveEnd.symm
          exact Or.inr ⟨row, line, rfl, found, isLeading⟩

/-- The delimiters of a selection of rows are known as soon as their rows exist. -/
theorem exists_rowDelimiters? {r : Range} {above below : Option Nat} (inside : d.HasRows r)
    (aboveInside : ∀ row, above = some row → row < d.lineCount) :
    ∃ c, d.rowDelimiters? r above below = some c := by
  obtain ⟨bottom, foundBottom⟩ := exists_line? inside.stop_row
  have full : d.fullRows? r = some ⟨⟨r.start.row, 0⟩, ⟨r.stop.row, bottom.length⟩⟩ := by
    simp [fullRows?, lineEnd?_of_line? foundBottom]
  cases above with
  | none =>
      simp only [rowDelimiters?, full]
      exact ⟨_, rfl⟩
  | some row =>
      obtain ⟨line, found⟩ := exists_line? (aboveInside row rfl)
      simp only [rowDelimiters?, full, Option.mapM_some, lineEnd?_of_line? found]
      exact ⟨_, rfl⟩

theorem exists_lineDelimiters? {r : Range} (inside : d.HasRows r) :
    ∃ c, d.lineDelimiters? r = some c := by
  apply exists_rowDelimiters? inside
  intro row above
  have start := inside.start_row
  split at above
  · cases above
  · cases above
    omega

theorem exists_paragraphDelimiters? {r : Range} (inside : d.HasRows r) :
    ∃ c, d.paragraphDelimiters? r = some c := by
  apply exists_rowDelimiters? inside
  intro row above
  have start := inside.start_row
  split at above
  · cases above
  · cases above
    omega
  · cases above
    omega

/-! ## Rows of paragraphs -/

/-- The way up never passes the first row. -/
theorem exists_paragraphStart? {row : Nat} (inside : row < d.lineCount) :
    ∃ first, d.paragraphStart? row = some first ∧ first ≤ row := by
  induction row with
  | zero => exact ⟨0, rfl, Nat.le_refl 0⟩
  | succ above ih =>
      have aboveInside := Nat.lt_of_succ_lt inside
      obtain ⟨line, found⟩ := exists_line? aboveInside
      simp only [paragraphStart?, found, Option.bind_eq_bind, Option.bind_some]
      split
      · exact ⟨_, rfl, Nat.le_refl _⟩
      · obtain ⟨first, reached, le⟩ := ih aboveInside
        exact ⟨first, reached, Nat.le_succ_of_le le⟩

/-- The way down never passes the last row. -/
theorem exists_paragraphStop? {row below : Nat} (inside : row + below < d.lineCount) :
    ∃ last, d.paragraphStop? row below = some last ∧ row ≤ last ∧ last < d.lineCount := by
  induction below generalizing row with
  | zero => exact ⟨row, rfl, Nat.le_refl _, inside⟩
  | succ below ih =>
      obtain ⟨line, found⟩ : ∃ l, d.line? (row + 1) = some l := exists_line? (by omega)
      simp only [paragraphStop?, found, Option.bind_eq_bind, Option.bind_some]
      split
      · exact ⟨row, rfl, Nat.le_refl _, by omega⟩
      · have belowInside : row + 1 + below < d.lineCount := by omega
        obtain ⟨last, reached, le, lt⟩ := ih belowInside
        exact ⟨last, reached, Nat.le_of_succ_le le, lt⟩

/-- The first and the last row of the paragraph around a range of the document. -/
def paragraphRows (d : Document) (r : Range) : Nat × Nat :=
  (d.paragraphRows? r).getD (r.start.row, r.stop.row)

/-- A paragraph takes in the rows of the range and stays within the document. -/
theorem exists_paragraphRows? {r : Range} (inside : d.HasRows r) :
    ∃ first last, d.paragraphStart? r.start.row = some first ∧
      d.paragraphStop? r.stop.row (d.lineCount - (r.stop.row + 1)) = some last ∧
      d.paragraphRows? r = some (first, last) ∧ d.paragraphRows r = (first, last) ∧
      first ≤ r.start.row ∧ r.stop.row ≤ last ∧ last < d.lineCount := by
  have stop := inside.stop_row
  have rowsBelow : r.stop.row + (d.lineCount - (r.stop.row + 1)) < d.lineCount := by omega
  obtain ⟨first, top, above⟩ := exists_paragraphStart? inside.start_row
  obtain ⟨last, bottom, below, lastInside⟩ := exists_paragraphStop? rowsBelow
  have found : d.paragraphRows? r = some (first, last) := by
    simp [paragraphRows?, top, bottom]
  exact ⟨first, last, top, bottom, found, by rw [paragraphRows, found]; rfl, above, below,
    lastInside⟩

theorem paragraphRows?_eq {r : Range} (inside : d.HasRows r) :
    d.paragraphRows? r = some (d.paragraphRows r) := by
  obtain ⟨first, last, _, _, found, equal, _⟩ := exists_paragraphRows? inside
  rw [found, equal]

theorem paragraphRows_spec {r : Range} (inside : d.HasRows r) :
    (d.paragraphRows r).1 ≤ r.start.row ∧ r.stop.row ≤ (d.paragraphRows r).2 ∧
      (d.paragraphRows r).2 < d.lineCount := by
  obtain ⟨first, last, _, _, _, equal, bounds⟩ := exists_paragraphRows? inside
  rw [equal]
  exact bounds

theorem paragraphRows_ordered {r : Range} (inside : d.HasRows r) :
    (d.paragraphRows r).1 ≤ (d.paragraphRows r).2 := by
  obtain ⟨above, below, _⟩ := paragraphRows_spec inside
  exact le_trans above (le_trans (Position.row_le_of_le r.start_le_stop) below)

end Document

end TargetSpans
