import Mathlib.Order.Bounds.Basic
import Mathlib.Data.Set.Function
import Mathlib.Order.Monotone.Defs
import TargetSpans.Proofs.LineIndex

/-!
# Positions and indices of a document

Counting characters and counting rows and columns name the same places of a text, in the same
order, with one exception: the index between the two characters of a carriage return with its line
feed has no position on the content of a line.  The exception is found by going through the text
character by character, as the lines are cut.
-/

namespace TargetSpans

namespace Text

/-- An index splits a break if it lies between a carriage return and the line feed right after
it. -/
def SplitsBreak (t : Text) (index : Nat) : Prop :=
  ∃ before after, t = before ++ '\r' :: '\n' :: after ∧ index = before.length + 1

theorem SplitsBreak.pos {t : Text} {index : Nat} (splits : t.SplitsBreak index) : 0 < index := by
  obtain ⟨before, after, rfl, rfl⟩ := splits
  exact Nat.succ_pos _

theorem SplitsBreak.lt_length {t : Text} {index : Nat} (splits : t.SplitsBreak index) :
    index < t.length := by
  obtain ⟨before, after, rfl, rfl⟩ := splits
  simp only [List.length_append, List.length_cons]
  omega

/-- Where a text is cut in two, the cut splits a break if the first part ends in its carriage return
and the second part starts with its line feed. -/
theorem splitsBreak_append_iff {left right : Text} :
    SplitsBreak (left ++ right) left.length ↔
      ∃ before after, left = before ++ ['\r'] ∧ right = '\n' :: after := by
  constructor
  · rintro ⟨before, after, split, length⟩
    have cut : left ++ right = (before ++ ['\r']) ++ '\n' :: after := by simpa using split
    have same : left.length = (before ++ ['\r']).length := by simpa using length
    obtain ⟨first, second⟩ := List.append_inj cut same
    exact ⟨before, after, first, second⟩
  · rintro ⟨before, after, rfl, rfl⟩
    exact ⟨before, after, by simp, by simp⟩

theorem not_splitsBreak_nil (index : Nat) : ¬ SplitsBreak [] index :=
  fun splits => absurd splits.lt_length (Nat.not_lt_zero _)

theorem splitsBreak_cons_succ {c : Char} {rest : Text}
    (single : ∀ more, c = '\r' → rest = '\n' :: more → False) (index : Nat) :
    SplitsBreak (c :: rest) (index + 1) ↔ SplitsBreak rest index := by
  constructor
  · rintro ⟨before, after, split, length⟩
    cases before with
    | nil =>
        obtain ⟨first, tail⟩ := List.cons.inj split
        exact (single after first tail).elim
    | cons first before =>
        refine ⟨before, after, (List.cons.inj split).2, ?_⟩
        simp only [List.length_cons] at length
        omega
  · rintro ⟨before, after, rfl, rfl⟩
    exact ⟨c :: before, after, rfl, rfl⟩

theorem splitsBreak_crlf (rest : Text) (index : Nat) :
    SplitsBreak ('\r' :: '\n' :: rest) (index + 1) ↔
      index = 0 ∨ ∃ below, index = below + 1 ∧ SplitsBreak rest below := by
  have feed : ∀ more, '\n' = '\r' → rest = '\n' :: more → False :=
    fun more equal _ => absurd equal (by decide)
  constructor
  · rintro ⟨before, after, split, length⟩
    cases before with
    | nil =>
        left
        simpa using length
    | cons first before =>
        have inside : SplitsBreak ('\n' :: rest) index := by
          refine ⟨before, after, (List.cons.inj split).2, ?_⟩
          simp only [List.length_cons] at length
          omega
        obtain ⟨below, rfl⟩ := Nat.exists_eq_succ_of_ne_zero inside.pos.ne'
        exact Or.inr ⟨below, rfl, (splitsBreak_cons_succ feed below).mp inside⟩
  · rintro (rfl | ⟨below, rfl, inside⟩)
    · exact ⟨[], rest, rfl, rfl⟩
    · obtain ⟨before, after, rfl, rfl⟩ := inside
      exact ⟨'\r' :: '\n' :: before, after, rfl, rfl⟩

end Text

namespace Line

/-- A position lies on a line but past its content. -/
def PastContent (ls : List Line) (p : Position) : Prop :=
  ∃ l, ls[p.row]? = some l ∧ l.length < p.col

theorem pastContent_cons_iff {l : Line} {rest : List Line} (nonempty : rest ≠ [])
    (index : Nat) :
    PastContent (l :: rest) (positionIn (l :: rest) index) ↔
      l.length < index ∧ index < l.size ∨
        l.size ≤ index ∧ PastContent rest (positionIn rest (index - l.size)) := by
  obtain ⟨next, more, rfl⟩ := List.exists_cons_of_ne_nil nonempty
  rw [positionIn]
  split
  case isTrue before =>
    simp [PastContent, before, Nat.not_le_of_lt before]
  case isFalse after =>
    simp [PastContent, after, Nat.le_of_not_lt after]

theorem not_pastContent_singleton (l : Line) (index : Nat) :
    ¬ PastContent [l] (positionIn [l] index) := by
  rintro ⟨line, found, past⟩
  have same : l = line := by simpa [positionIn] using found
  subst same
  simp only [positionIn] at past
  omega

/-- A character put in front of the first line moves the columns of that line, and nothing else. -/
theorem pastContent_consContent_iff {c : Char} {ls : List Line} (nonempty : ls ≠ [])
    (index : Nat) :
    PastContent (Text.consContent c ls) (positionIn (Text.consContent c ls) index) ↔
      0 < index ∧ PastContent ls (positionIn ls (index - 1)) := by
  obtain ⟨l, rest, rfl⟩ := List.exists_cons_of_ne_nil nonempty
  have length : (⟨c :: l.content, l.ending⟩ : Line).length = l.length + 1 := rfl
  have size : (⟨c :: l.content, l.ending⟩ : Line).size = l.size + 1 := by
    simp [size_eq, length, endingChars]
    omega
  cases rest with
  | nil =>
      simp only [Text.consContent, not_pastContent_singleton, and_false]
  | cons next rest =>
      have tail : next :: rest ≠ [] := List.cons_ne_nil next rest
      rw [Text.consContent, pastContent_cons_iff tail index, pastContent_cons_iff tail (index - 1),
        length, size]
      have shift : index - (l.size + 1) = index - 1 - l.size := by omega
      rw [shift]
      constructor
      · rintro (⟨past, before⟩ | ⟨after, below⟩)
        · exact ⟨by omega, Or.inl ⟨by omega, by omega⟩⟩
        · exact ⟨by omega, Or.inr ⟨by omega, below⟩⟩
      · rintro ⟨pos, ⟨past, before⟩ | ⟨after, below⟩⟩
        · exact Or.inl ⟨by omega, by omega⟩
        · exact Or.inr ⟨by omega, below⟩

end Line

namespace Text

open Line

/-- The indices without a place on the content of a line are those that split a break. -/
theorem pastContent_iff_splitsBreak (t : Text) (index : Nat) :
    PastContent t.lines (positionIn t.lines index) ↔ t.SplitsBreak index := by
  fun_induction lines t generalizing index with
  | case1 =>
      simp only [not_pastContent_singleton, not_splitsBreak_nil]
  | case2 rest ih =>
      rw [pastContent_cons_iff (separated_lines rest).ne_nil, ih]
      change 0 < index ∧ index < 2 ∨ 2 ≤ index ∧ SplitsBreak rest (index - 2) ↔ _
      cases index with
      | zero => exact iff_of_false (by omega) fun splits => absurd splits.pos (by simp)
      | succ index =>
          rw [splitsBreak_crlf]
          constructor
          · rintro (⟨_, before⟩ | ⟨after, inside⟩)
            · exact Or.inl (by omega)
            · exact Or.inr ⟨index - 1, by omega, inside⟩
          · rintro (rfl | ⟨below, rfl, inside⟩)
            · exact Or.inl ⟨by omega, by omega⟩
            · exact Or.inr ⟨by omega, inside⟩
  | case3 c rest single b found ih =>
      have size : (⟨[], some b⟩ : Line).size = 1 := by
        simp [Line.size, Line.chars, Line.endingChars, LineBreak.chars_of_ofChar? found]
      rw [pastContent_cons_iff (separated_lines rest).ne_nil, ih, size]
      change 0 < index ∧ index < 1 ∨ 1 ≤ index ∧ SplitsBreak rest (index - 1) ↔ _
      cases index with
      | zero => exact iff_of_false (by omega) fun splits => absurd splits.pos (by simp)
      | succ index =>
          rw [splitsBreak_cons_succ single, Nat.add_sub_cancel]
          constructor
          · rintro (⟨_, before⟩ | ⟨_, inside⟩)
            · omega
            · exact inside
          · exact fun inside => Or.inr ⟨by omega, inside⟩
  | case4 c rest single plain ih =>
      rw [pastContent_consContent_iff (separated_lines rest).ne_nil, ih]
      cases index with
      | zero => exact iff_of_false (by omega) fun splits => absurd splits.pos (by simp)
      | succ index =>
          rw [splitsBreak_cons_succ single, Nat.add_sub_cancel]
          exact and_iff_right (Nat.succ_pos index)

end Text

namespace Document

variable (d : Document)

theorem separated_lines : Line.Separated d.lines :=
  Text.separated_lines d.text

theorem totalSize_lines : Line.totalSize d.lines = d.text.length :=
  Text.totalSize_lines d.text

variable {d}

theorem contains_iff {p : Position} :
    d.contains p = true ↔ ∃ l, d.line? p.row = some l ∧ p.col ≤ l.length := by
  simp [contains, Option.any_eq_true]

theorem row_lt_of_contains {p : Position} (inside : d.contains p = true) :
    p.row < d.lineCount := by
  obtain ⟨l, found, _⟩ := contains_iff.mp inside
  exact (List.getElem?_eq_some_iff.mp found).1

theorem position_row_lt (index : Nat) : (d.position index).row < d.lineCount :=
  Line.positionIn_row_lt d.separated_lines.ne_nil index

theorem index_eq_of_line? {p : Position} {l : Line} (found : d.line? p.row = some l) :
    d.index p = d.text.rowStart p.row + min p.col l.length :=
  Line.indexIn_of_getElem? found p.col

theorem index_le_length (p : Position) : d.index p ≤ d.text.length :=
  d.totalSize_lines ▸ Line.indexIn_le_totalSize d.lines p.row p.col

theorem index_mono {p q : Position} (le : p ≤ q) (inside : q.row < d.lineCount) :
    d.index p ≤ d.index q :=
  Line.indexIn_mono le inside

theorem position_mono {i j : Nat} (le : i ≤ j) : d.position i ≤ d.position j :=
  Line.positionIn_mono d.lines le

theorem position_index {p : Position} (inside : d.contains p = true) :
    d.position (d.index p) = p := by
  obtain ⟨l, found, le⟩ := contains_iff.mp inside
  exact Line.positionIn_indexIn d.separated_lines found le

/-- The index that a position comes from: the characters of the rows above and the column. -/
theorem rowStart_add_col_position (index : Nat) :
    d.text.rowStart (d.position index).row + (d.position index).col =
      min index d.text.length := by
  obtain ⟨_, _, sum, _⟩ := Line.positionIn_spec d.separated_lines index
  rw [d.totalSize_lines] at sum
  exact sum

/-- Different indices of a text have different positions, in the same order. -/
theorem position_lt_position {i j : Nat} (lt : i < j) (le : j ≤ d.text.length) :
    d.position i < d.position j := by
  apply lt_of_le_of_ne (position_mono (Nat.le_of_lt lt))
  intro equal
  have first := rowStart_add_col_position (d := d) i
  have second := rowStart_add_col_position (d := d) j
  rw [equal] at first
  omega

theorem line?_position (index : Nat) :
    ∃ l, d.line? (d.position index).row = some l ∧ (d.position index).col ≤ l.length + 1 := by
  obtain ⟨l, found, _, short⟩ := Line.positionIn_spec d.separated_lines index
  exact ⟨l, found, short⟩

theorem splitsBreak_iff (index : Nat) :
    d.text.SplitsBreak index ↔
      ∃ l, d.line? (d.position index).row = some l ∧ l.length < (d.position index).col :=
  (Text.pastContent_iff_splitsBreak d.text index).symm

theorem contains_position_iff (index : Nat) :
    d.contains (d.position index) = true ↔ ¬ d.text.SplitsBreak index := by
  obtain ⟨l, found, _⟩ := line?_position (d := d) index
  rw [splitsBreak_iff, contains_iff]
  constructor
  · rintro ⟨line, sameRow, le⟩ ⟨other, row, past⟩
    have same : line = other := Option.some.inj (sameRow.symm.trans row)
    subst same
    exact absurd past (Nat.not_lt_of_le le)
  · intro inContent
    refine ⟨l, found, Nat.le_of_not_lt ?_⟩
    exact fun past => inContent ⟨l, found, past⟩

/-- An index on the content of a line is the index of its position. -/
theorem index_position {index : Nat} (le : index ≤ d.text.length)
    (whole : ¬ d.text.SplitsBreak index) : d.index (d.position index) = index := by
  obtain ⟨l, found, short⟩ := contains_iff.mp ((contains_position_iff index).mpr whole)
  have sum := rowStart_add_col_position (d := d) index
  rw [index_eq_of_line? found]
  omega

/-- An index that splits a break has the column right after the content of its line, and the
position counts as the end of that content. -/
theorem position_of_splitsBreak {index : Nat} (splits : d.text.SplitsBreak index) :
    (∃ l, d.line? (d.position index).row = some l ∧
        (d.position index).col = l.length + 1) ∧
      d.index (d.position index) = index - 1 := by
  obtain ⟨l, found, past⟩ := (splitsBreak_iff index).mp splits
  obtain ⟨line, sameRow, short⟩ := line?_position (d := d) index
  have same : l = line := Option.some.inj (found.symm.trans sameRow)
  subst same
  have col : (d.position index).col = l.length + 1 := Nat.le_antisymm short past
  have sum := rowStart_add_col_position (d := d) index
  have inside := splits.lt_length
  refine ⟨⟨l, found, col⟩, ?_⟩
  rw [index_eq_of_line? found]
  omega

/-- The index of a position on the content of a line never splits a break. -/
theorem not_splitsBreak_index {p : Position} (inside : d.contains p = true) :
    ¬ d.text.SplitsBreak (d.index p) := by
  rw [← contains_position_iff, position_index inside]
  exact inside

/-- The text of a range lies in the text of the document between the indices of its bounds. -/
theorem exists_append_of_textOf? {r : Range} {t : Text} (found : d.textOf? r = some t) :
    ∃ before after, d.text = before ++ t ++ after ∧ before.length = d.index r.start ∧
      before.length + t.length = d.index r.stop := by
  simp only [textOf?] at found
  split at found
  case isFalse => cases found
  case isTrue ordered =>
    cases found
    have inside := d.index_le_length r.stop
    refine ⟨d.text.take (d.index r.start), d.text.drop (d.index r.stop), ?_, ?_, ?_⟩
    · have front : d.text.take (d.index r.start) =
          (d.text.take (d.index r.stop)).take (d.index r.start) := by
        rw [List.take_take, Nat.min_eq_left ordered]
      rw [front, List.take_append_drop, List.take_append_drop]
    · rw [List.length_take]
      omega
    · rw [List.length_take, List.length_drop, List.length_take]
      omega

/-! ## The end of a document -/

theorem finish_eq_getElem :
    ∃ l, d.line? d.finish.row = some l ∧ d.finish.col = l.length := by
  have nonempty := d.separated_lines.ne_nil
  refine ⟨d.lines.getLast nonempty, ?_, ?_⟩
  · rw [line?, finish, lineCount, ← List.getLast?_eq_getElem?,
      List.getLast?_eq_some_getLast nonempty]
  · rw [finish, List.getLast?_eq_some_getLast nonempty]
    rfl

theorem contains_finish : d.contains d.finish = true := by
  obtain ⟨l, found, col⟩ := finish_eq_getElem (d := d)
  exact contains_iff.mpr ⟨l, found, col.le⟩

theorem le_finish {p : Position} (inside : d.contains p = true) : p ≤ d.finish := by
  obtain ⟨l, found, le⟩ := contains_iff.mp inside
  obtain ⟨last, foundLast, col⟩ := finish_eq_getElem (d := d)
  have row := row_lt_of_contains inside
  rcases Nat.lt_or_ge p.row d.finish.row with above | sameRow
  · exact Position.le_of_row_lt above
  · have rowEq : p.row = d.finish.row := by
      apply Nat.le_antisymm _ sameRow
      simp only [finish]
      omega
    have same : l = last := Option.some.inj (by rw [← found, ← foundLast, rowEq])
    subst same
    exact Or.inr ⟨rowEq, col ▸ le⟩

theorem isGreatest_finish : IsGreatest {p | d.contains p = true} d.finish :=
  ⟨contains_finish, fun _ inside => le_finish inside⟩

theorem index_finish : d.index d.finish = d.text.length := by
  have whole : ¬ d.text.SplitsBreak d.text.length :=
    fun splits => absurd splits.lt_length (Nat.lt_irrefl _)
  have last := index_position (Nat.le_refl _) whole
  have inside := (contains_position_iff d.text.length).mpr whole
  apply Nat.le_antisymm (index_le_length _)
  calc
    d.text.length = d.index (d.position d.text.length) := last.symm
    _ ≤ d.index d.finish := index_mono (le_finish inside) (row_lt_of_contains contains_finish)

/-! ## The correspondence -/

/-- The positions on the content of a line. -/
def places (d : Document) : Set Position := {p | d.contains p = true}

/-- The indices that split no break. -/
def cuts (d : Document) : Set Nat := {i | i ≤ d.text.length ∧ ¬ d.text.SplitsBreak i}

theorem index_mem_cuts {p : Position} (place : p ∈ d.places) : d.index p ∈ d.cuts :=
  ⟨index_le_length p, not_splitsBreak_index place⟩

theorem position_mem_places {i : Nat} (cut : i ∈ d.cuts) : d.position i ∈ d.places :=
  (contains_position_iff i).mpr cut.2

theorem strictMonoOn_position : StrictMonoOn d.position d.cuts :=
  fun _ _ _ second lt => position_lt_position lt second.1

theorem strictMonoOn_index : StrictMonoOn d.index d.places := by
  intro p first q second lt
  apply lt_of_le_of_ne (index_mono (le_of_lt lt) (row_lt_of_contains second))
  intro equal
  have same : p = q := by
    rw [← position_index first, ← position_index second, equal]
  exact absurd same (ne_of_lt lt)

/-- Positions on the content of lines and indices that split no break are the same places in the
same order.  An index that splits a break is one column past the content of its line and counts as
the end of that content, and the end of the last line is the last place. -/
theorem index_position_correspondence (d : Document) :
    Set.MapsTo d.index d.places d.cuts ∧ Set.MapsTo d.position d.cuts d.places ∧
      Set.InvOn d.position d.index d.places d.cuts ∧
      StrictMonoOn d.index d.places ∧ StrictMonoOn d.position d.cuts ∧
      (∀ i, d.text.SplitsBreak i →
        (∃ l, d.line? (d.position i).row = some l ∧ (d.position i).col = l.length + 1) ∧
          d.position i ∉ d.places ∧ d.index (d.position i) = i - 1) ∧
      IsGreatest d.places d.finish ∧ d.index d.finish = d.text.length := by
  refine ⟨fun _ => index_mem_cuts, fun _ => position_mem_places, ⟨?_, ?_⟩,
    strictMonoOn_index, strictMonoOn_position, ?_, isGreatest_finish, index_finish⟩
  · exact fun p place => position_index place
  · exact fun i cut => index_position cut.1 cut.2
  · intro i splits
    obtain ⟨past, back⟩ := position_of_splitsBreak splits
    exact ⟨past, fun place => (contains_position_iff i).mp place splits, back⟩

end Document

end TargetSpans
