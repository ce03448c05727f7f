import TargetSpans.Document
import TargetSpans.Proofs.RangeBounds

/-!
# Indices and positions over lines

The two translations between indices and positions walk down a list of lines.  What they do is
stated here for every list of lines in which all but the last one end in a break; the lines of a
text are such a list, and joined together they give the text back.
-/

namespace TargetSpans

namespace LineBreak

theorem one_le_length (b : LineBreak) : 1 ≤ b.length := by
  cases b <;> decide

theorem length_le_two (b : LineBreak) : b.length ≤ 2 := by
  cases b <;> decide

theorem chars_of_ofChar? {c : Char} {b : LineBreak} (found : ofChar? c = some b) :
    b.chars = [c] := by
  unfold ofChar? at found
  split_ifs at found with lineFeed verticalTab formFeed carriageReturn nextLine lineSeparator
    paragraphSeparator
  all_goals
    cases found
    subst c
    rfl

end LineBreak

namespace Line

theorem size_eq (l : Line) : l.size = l.length + l.endingChars.length := by
  simp [size, chars, length]

theorem size_of_ending_none {l : Line} (unbroken : l.ending = none) : l.size = l.length := by
  simp [size_eq, endingChars, unbroken]

theorem length_lt_size {l : Line} (broken : l.ending.isSome) : l.length < l.size := by
  obtain ⟨b, ending⟩ := Option.isSome_iff_exists.mp broken
  have nonempty := b.one_le_length
  simp only [LineBreak.length] at nonempty
  simp only [size_eq, endingChars, ending, Option.map_some, Option.getD_some]
  omega

theorem length_le_size (l : Line) : l.length ≤ l.size := by
  rw [size_eq]
  omega

theorem size_le (l : Line) : l.size ≤ l.length + 2 := by
  rw [size_eq]
  cases ending : l.ending with
  | none => simp [endingChars, ending]
  | some b =>
      have short := b.length_le_two
      simp only [LineBreak.length] at short
      simp only [endingChars, ending, Option.map_some, Option.getD_some]
      omega

@[simp]
theorem totalSize_nil : totalSize [] = 0 := rfl

@[simp]
theorem totalSize_cons (l : Line) (ls : List Line) :
    totalSize (l :: ls) = l.size + totalSize ls :=
  rfl

theorem totalSize_append (first second : List Line) :
    totalSize (first ++ second) = totalSize first + totalSize second := by
  induction first with
  | nil => simp
  | cons l rest ih =>
      rw [List.cons_append, totalSize_cons, totalSize_cons, ih]
      omega

theorem length_flatMap_chars (ls : List Line) :
    (ls.flatMap chars).length = totalSize ls := by
  induction ls with
  | nil => rfl
  | cons l rest ih => rw [List.flatMap_cons, List.length_append, ih, totalSize_cons, size]

theorem totalSize_take_add_drop (ls : List Line) (row : Nat) :
    totalSize (ls.take row) + totalSize (ls.drop row) = totalSize ls := by
  rw [← totalSize_append, List.take_append_drop]

/-- All lines but the last one end in a break. -/
def Separated : List Line → Prop
  | [] => False
  | [l] => l.ending = none
  | l :: next :: rest => l.ending.isSome ∧ Separated (next :: rest)

theorem Separated.ne_nil {ls : List Line} (separated : Separated ls) : ls ≠ [] := by
  rintro rfl
  exact separated

/-! ## From positions to indices -/

/-- The index of a position on an existing row. -/
theorem indexIn_of_getElem? {ls : List Line} {row : Nat} {l : Line} (found : ls[row]? = some l)
    (col : Nat) :
    indexIn ls row col = totalSize (ls.take row) + min col l.length := by
  induction ls generalizing row with
  | nil => simp at found
  | cons first rest ih =>
      cases row with
      | zero =>
          have same : first = l := by simpa using found
          subst same
          cases rest <;> simp [indexIn]
      | succ row =>
          have below : rest[row]? = some l := by simpa using found
          cases rest with
          | nil => simp at below
          | cons next rest =>
              rw [indexIn, ih below, List.take_succ_cons, totalSize_cons]
              omega

theorem indexIn_le_totalSize (ls : List Line) (row col : Nat) :
    indexIn ls row col ≤ totalSize ls := by
  fun_induction indexIn ls row col with
  | case1 => simp
  | case2 l row col =>
      have := l.length_le_size
      simp only [totalSize_cons, totalSize_nil]
      omega
  | case3 l next rest col =>
      have := l.length_le_size
      simp only [totalSize_cons]
      omega
  | case4 l next rest row col ih =>
      rw [totalSize_cons]
      omega

/-- Indices grow with positions as long as the rows exist.  Past the last row they need not: there
the row is clamped and the column counts again. -/
theorem indexIn_mono {ls : List Line} {p q : Position} (le : p ≤ q) (inside : q.row < ls.length) :
    indexIn ls p.row p.col ≤ indexIn ls q.row q.col := by
  obtain ⟨prow, pcol⟩ := p
  obtain ⟨qrow, qcol⟩ := q
  simp only [Position.le_iff] at le inside ⊢
  induction ls generalizing prow qrow with
  | nil => simp at inside
  | cons l rest ih =>
      cases rest with
      | nil =>
          simp only [List.length_cons, List.length_nil] at inside
          simp only [indexIn]
          omega
      | cons next rest =>
          have := l.length_le_size
          cases prow with
          | zero => cases qrow <;> simp only [indexIn] <;> omega
          | succ prow =>
              cases qrow with
              | zero => omega
              | succ qrow =>
                  have tail := ih prow qrow (Nat.lt_of_succ_lt_succ inside) (by omega)
                  simp only [indexIn]
                  omega

/-! ## From indices to positions -/

theorem positionIn_row_lt {ls : List Line} (nonempty : ls ≠ []) (index : Nat) :
    (positionIn ls index).row < ls.length := by
  fun_induction positionIn ls index with
  | case1 => exact absurd rfl nonempty
  | case2 l index => simp
  | case3 l next rest index before => simp
  | case4 l next rest index after p ih => exact Nat.succ_lt_succ (ih (by simp))

theorem positionIn_mono (ls : List Line) {i j : Nat} (le : i ≤ j) :
    positionIn ls i ≤ positionIn ls j := by
  induction ls generalizing i j with
  | nil => exact le_refl _
  | cons l rest ih =>
      cases rest with
      | nil => exact Position.mk_le_mk (by omega)
      | cons next rest =>
          rw [positionIn, positionIn]
          split
          · split
            · exact Position.mk_le_mk le
            · exact Position.le_of_row_lt (Nat.succ_pos _)
          · rw [if_neg (by omega)]
            exact Position.le_succ_row (ih (by omega))

/-- Where an index leads: to an existing row, as many columns into it as characters are left after
the rows above, and no further than into the break of the row. -/
theorem positionIn_spec {ls : List Line} (separated : Separated ls) (index : Nat) :
    ∃ l, ls[(positionIn ls index).row]? = some l ∧
      totalSize (ls.take (positionIn ls index).row) + (positionIn ls index).col =
        min index (totalSize ls) ∧
      (positionIn ls index).col ≤ l.length + 1 := by
  fun_induction positionIn ls index with
  | case1 => exact separated.elim
  | case2 l index =>
      have size := size_of_ending_none separated
      refine ⟨l, rfl, ?_, ?_⟩
      · simp only [List.take_zero, totalSize_nil, totalSize_cons]
        omega
      · simp only
        omega
  | case3 l next rest index before =>
      have := l.size_le
      refine ⟨l, rfl, ?_, ?_⟩
      · simp only [List.take_zero, totalSize_nil, totalSize_cons]
        omega
      · simp only
        omega
  | case4 l next rest index after p ih =>
      obtain ⟨line, found, sum, short⟩ := ih separated.2
      refine ⟨line, found, ?_, short⟩
      rw [List.take_succ_cons, totalSize_cons, totalSize_cons]
      simp only [p]
      omega

/-- A column on the content of an existing row is found again. -/
theorem positionIn_indexIn {ls : List Line} (separated : Separated ls) {row col : Nat} {l : Line}
    (found : ls[row]? = some l) (le : col ≤ l.length) :
    positionIn ls (indexIn ls row col) = ⟨row, col⟩ := by
  induction ls generalizing row with
  | nil => simp at found
  | cons first rest ih =>
      cases rest with
      | nil =>
          cases row with
          | zero =>
              have same : first = l := by simpa using found
              subst same
              simp only [indexIn, positionIn, Position.mk.injEq, true_and]
              omega
          | succ row => simp at found
      | cons next rest =>
          cases row with
          | zero =>
              have same : first = l := by simpa using found
              subst same
              have room := length_lt_size separated.1
              have first : min col first.length < first.size := by omega
              rw [indexIn, positionIn, if_pos first]
              simp only [Position.mk.injEq, true_and]
              omega
          | succ row =>
              have below : (next :: rest)[row]? = some l := by simpa using found
              have tail := ih separated.2 below
              rw [indexIn, positionIn, if_neg (by omega), Nat.add_sub_cancel_left, tail]

end Line

namespace Text

theorem separated_consContent {c : Char} {ls : List Line} (separated : Line.Separated ls) :
    Line.Separated (consContent c ls) := by
  match ls, separated with
  | [_], separated => exact separated
  | _ :: _ :: _, separated => exact separated

theorem separated_lines (t : Text) : Line.Separated t.lines := by
  fun_induction lines t with
  | case1 => rfl
  | case2 rest ih =>
      cases below : lines rest with
      | nil => simp [below, Line.Separated] at ih
      | cons next more => exact ⟨rfl, below ▸ ih⟩
  | case3 c rest single b found ih =>
      cases below : lines rest with
      | nil => simp [below, Line.Separated] at ih
      | cons next more => exact ⟨rfl, below ▸ ih⟩
  | case4 c rest single plain ih => exact separated_consContent ih

theorem flatMap_chars_consContent {c : Char} {ls : List Line} (nonempty : ls ≠ []) :
    (consContent c ls).flatMap Line.chars = c :: ls.flatMap Line.chars := by
  cases ls with
  | nil => exact absurd rfl nonempty
  | cons l rest => simp [consContent, Line.chars, Line.endingChars]

/-- The lines of a text, joined with their breaks, give the text back. -/
theorem flatMap_chars_lines (t : Text) : t.lines.flatMap Line.chars = t := by
  fun_induction lines t with
  | case1 => rfl
  | case2 rest ih => simp [Line.chars, Line.endingChars, LineBreak.chars, ih]
  | case3 c rest single b found ih =>
      simp [Line.chars, Line.endingChars, LineBreak.chars_of_ofChar? found, ih]
  | case4 c rest single plain ih =>
      rw [flatMap_chars_consContent (separated_lines rest).ne_nil, ih]

theorem totalSize_lines (t : Text) : Line.totalSize t.lines = t.length := by
  rw [← Line.length_flatMap_chars, flatMap_chars_lines]

end Text

end TargetSpans
