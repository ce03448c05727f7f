import TargetSpans.Proofs.LinePartition
import TargetSpans.Proofs.Rows

/-!
# The texts of ranges

A position outside a document counts as a place of it: rows below the last one count as the last
one, and columns past the content of a row as its end.  On existing rows this keeps the order of
positions.  Below them it need not, since there only the columns are left to compare, and a range
whose bounds change places that way has no text.  Every other range has one, and the texts of
ranges that touch join up to the text of the document.
-/

namespace TargetSpans

namespace Line

/-- Rows below the last one count as the last one. -/
theorem indexIn_min_row {ls : List Line} (nonempty : ls ≠ []) (row col : Nat) :
    indexIn ls (min row (ls.length - 1)) col = indexIn ls row col := by
  fun_induction indexIn ls row col with
  | case1 => exact absurd rfl nonempty
  | case2 l row col => simp [indexIn]
  | case3 l next rest col => simp [indexIn]
  | case4 l next rest row col ih =>
      have below : min (row + 1) ((l :: next :: rest).length - 1) =
          min row ((next :: rest).length - 1) + 1 := by
        simp only [List.length_cons]
        omega
      rw [below, indexIn, ih (List.cons_ne_nil _ _)]

end Line

theorem Text.take_append_drop_take {t : Text} {i j k : Nat} (first : i ≤ j) (second : j ≤ k) :
    (t.take j).drop i ++ (t.take k).drop j = (t.take k).drop i := by
  have front : t.take j = (t.take k).take j := by rw [List.take_take, Nat.min_eq_left second]
  have back : (t.take k).drop j = ((t.take k).drop i).drop (j - i) := by
    rw [List.drop_drop, Nat.add_sub_cancel' first]
  rw [front, List.drop_take, back, List.take_append_drop]

namespace Document

variable {d : Document} {p q : Position} {r : Range}

/-! ## Places that positions count as -/

/-- The place of the document that a position counts as. -/
def clamp (d : Document) (p : Position) : Position :=
  let row := min p.row d.finish.row
  ⟨row, min p.col (((d.line? row).map Line.length).getD 0)⟩

theorem exists_line?_clamp (d : Document) (p : Position) :
    ∃ l, d.line? (min p.row d.finish.row) = some l ∧
      d.clamp p = ⟨min p.row d.finish.row, min p.col l.length⟩ := by
  have inside : min p.row d.finish.row < d.lineCount :=
    Nat.lt_of_le_of_lt (Nat.min_le_right _ _) (row_lt_of_contains contains_finish)
  obtain ⟨l, found⟩ := exists_line? inside
  exact ⟨l, found, by simp [clamp, found]⟩

theorem clamp_mem_places (d : Document) (p : Position) : d.clamp p ∈ d.places := by
  obtain ⟨l, found, clamped⟩ := d.exists_line?_clamp p
  rw [clamped]
  exact contains_iff.mpr ⟨l, found, Nat.min_le_right _ _⟩

/-- The index of any position: the characters of the rows above, and the column as far as the row
goes. -/
theorem exists_index_eq (d : Document) (p : Position) :
    ∃ l, d.line? (min p.row d.finish.row) = some l ∧
      d.index p = d.text.rowStart (min p.row d.finish.row) + min p.col l.length := by
  obtain ⟨l, found, _⟩ := d.exists_line?_clamp p
  refine ⟨l, found, ?_⟩
  rw [index, ← Line.indexIn_min_row d.separated_lines.ne_nil]
  exact Line.indexIn_of_getElem? found p.col

theorem index_clamp (d : Document) (p : Position) : d.index (d.clamp p) = d.index p := by
  obtain ⟨l, found, clamped⟩ := d.exists_line?_clamp p
  obtain ⟨l', found', index⟩ := d.exists_index_eq p
  cases found.symm.trans found'
  rw [index, clamped, index_eq_of_line? found, min_assoc, min_self]

/-- Two positions change places only below the last row. -/
theorem clamp_lt_clamp_iff (ordered : p ≤ q) :
    d.clamp q < d.clamp p ↔
      d.finish.row ≤ p.row ∧ p.row < q.row ∧ min q.col d.finish.col < min p.col d.finish.col := by
  obtain ⟨last, foundLast, col⟩ := finish_eq_getElem (d := d)
  obtain ⟨l, found, clamped⟩ := d.exists_line?_clamp p
  obtain ⟨l', found', clamped'⟩ := d.exists_line?_clamp q
  rw [clamped, clamped', Position.lt_iff]
  rw [Position.le_iff] at ordered
  simp only
  constructor
  · rintro (above | ⟨sameRow, left⟩)
    · omega
    · -- On one row the columns are in order as well, unless the rows only count as one.
      rw [sameRow] at found'
      cases found.symm.trans found'
      have below : d.finish.row ≤ p.row := by omega
      rw [Nat.min_eq_right below] at found
      cases found.symm.trans foundLast
      rw [col]
      exact ⟨below, by omega, left⟩
  · rintro ⟨below, further, left⟩
    have below' : d.finish.row ≤ q.row := by omega
    rw [Nat.min_eq_right below] at found
    rw [Nat.min_eq_right below'] at found'
    cases found.symm.trans foundLast
    cases found'.symm.trans foundLast
    rw [Nat.min_eq_right below, Nat.min_eq_right below', ← col]
    exact Or.inr ⟨rfl, left⟩

/-! ## Texts -/

theorem textOf?_eq_none_iff : d.textOf? r = none ↔ d.clamp r.stop < d.clamp r.start := by
  rw [← strictMonoOn_index.lt_iff_lt (d.clamp_mem_places _) (d.clamp_mem_places _), index_clamp,
    index_clamp]
  simp only [textOf?]
  split
  case isTrue ordered => simpa using ordered
  case isFalse unordered => simpa using unordered

/-- What a range covers is the stretch of the text between the indices of its bounds. -/
theorem textOf?_eq_some_iff {t : Text} :
    d.textOf? r = some t ↔ ∃ before after, d.text = before ++ t ++ after ∧
      before.length = d.index r.start ∧ before.length + t.length = d.index r.stop := by
  refine ⟨exists_append_of_textOf?, ?_⟩
  rintro ⟨before, after, split, start, stop⟩
  simp only [textOf?, ← start, ← stop, if_pos (Nat.le_add_right _ _),
    Text.drop_take_of_append split]

/-- The texts of two stretches that touch, one after the other, are the text of both together. -/
theorem textOf?_append {next : Position} {s t : Text} (ordered : p ≤ q) (ordered' : q ≤ next)
    (inside : next.row < d.lineCount) (first : d.textOf? ⟨p, q⟩ = some s)
    (second : d.textOf? ⟨q, next⟩ = some t) : d.textOf? ⟨p, next⟩ = some (s ++ t) := by
  have between : q.row < d.lineCount := Nat.lt_of_le_of_lt (Position.row_le_of_le ordered') inside
  have le := index_mono ordered between
  have le' := index_mono ordered' inside
  simp only [textOf?, Range.start_mk_of_le ordered, Range.stop_mk_of_le ordered, if_pos le,
    Option.some.injEq] at first
  simp only [textOf?, Range.start_mk_of_le ordered', Range.stop_mk_of_le ordered', if_pos le',
    Option.some.injEq] at second
  have both := le_trans ordered ordered'
  simp only [textOf?, Range.start_mk_of_le both, Range.stop_mk_of_le both,
    if_pos (Nat.le_trans le le')]
  rw [← first, ← second, Text.take_append_drop_take le le']

theorem exists_textOf?_append {next : Position} (ordered : p ≤ q) (ordered' : q ≤ next)
    (inside : next.row < d.lineCount) :
    ∃ s t, d.textOf? ⟨p, q⟩ = some s ∧ d.textOf? ⟨q, next⟩ = some t ∧
      d.textOf? ⟨p, next⟩ = some (s ++ t) := by
  have between : q.row < d.lineCount := Nat.lt_of_le_of_lt (Position.row_le_of_le ordered') inside
  have above : p.row < d.lineCount := Nat.lt_of_le_of_lt (Position.row_le_of_le ordered) between
  obtain ⟨s, first⟩ := exists_textOf? (r := ⟨p, q⟩) ⟨above, between⟩
  obtain ⟨t, second⟩ := exists_textOf? (r := ⟨q, next⟩) ⟨between, inside⟩
  exact ⟨s, t, first, second, textOf?_append ordered ordered' inside first second⟩

theorem index_origin (d : Document) : d.index .origin = 0 := by
  obtain ⟨l, _, index⟩ := d.exists_index_eq .origin
  simpa [Position.origin, Text.rowStart] using index

/-- From the first position to the last one, the text of a range is that of the document. -/
theorem textOf?_whole (d : Document) : d.textOf? ⟨.origin, d.finish⟩ = some d.text := by
  have ordered := d.finish.origin_le
  rw [textOf?_eq_some_iff, Range.start_mk_of_le ordered, Range.stop_mk_of_le ordered, index_origin,
    index_finish]
  exact ⟨[], [], by simp, rfl, Nat.zero_add _⟩

/-- Every range has a text, the stretch between the indices of its bounds, but for those that start
on the last row or below it, stop on a lower one, and of whose columns, cut off at the length of the
last row, the later one is the smaller.  Ranges that touch have texts that join up, and the widest
one has the text of the document. -/
theorem textOf?_exact (d : Document) :
    (∃ last, d.line? (d.lineCount - 1) = some last ∧ d.finish = ⟨d.lineCount - 1, last.length⟩) ∧
    (∀ p : Position, ∃ l, d.line? (min p.row d.finish.row) = some l ∧
      d.index p = d.text.rowStart (min p.row d.finish.row) + min p.col l.length) ∧
    (∀ r, d.textOf? r = none ↔ d.finish.row ≤ r.start.row ∧ r.start.row < r.stop.row ∧
      min r.stop.col d.finish.col < min r.start.col d.finish.col) ∧
    (∀ r t, d.textOf? r = some t ↔ ∃ before after, d.text = before ++ t ++ after ∧
      before.length = d.index r.start ∧ before.length + t.length = d.index r.stop) ∧
    (∀ p q next : Position, p ≤ q → q ≤ next → next ∈ d.places →
      ∃ s t, d.textOf? ⟨p, q⟩ = some s ∧ d.textOf? ⟨q, next⟩ = some t ∧
        d.textOf? ⟨p, next⟩ = some (s ++ t)) ∧
    d.textOf? ⟨.origin, d.finish⟩ = some d.text := by
  refine ⟨?_, d.exists_index_eq, ?_, fun _ _ => textOf?_eq_some_iff, ?_, d.textOf?_whole⟩
  · obtain ⟨last, found, col⟩ := finish_eq_getElem (d := d)
    exact ⟨last, found, congrArg (Position.mk _) col⟩
  · intro r
    rw [textOf?_eq_none_iff, clamp_lt_clamp_iff r.start_le_stop]
  · intro p q next ordered ordered' place
    exact exists_textOf?_append ordered ordered' (row_lt_of_contains place)

/-- Both rows count as the only one, in which the start is then further right than the stop. -/
example : (⟨⟨1⟩, "plaintext", ['a', 'b']⟩ : Document).textOf? ⟨⟨0, 2⟩, ⟨1, 1⟩⟩ = none := by decide

end Document

end TargetSpans
