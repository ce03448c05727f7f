import Mathlib.Order.Interval.Set.Defs
import TargetSpans.Proofs.Unmodified

/-!
# Paragraphs

A paragraph grows from a range row by row, upward and downward, and stops in front of a blank row or
at the edge of the document.  Its rows are therefore the longest stretch around the range that has
no blank row besides those of the range itself.  Around rows that are not blank, paragraphs are the
classes of an equivalence: two such rows lie in one paragraph unless a blank row separates them.
-/

namespace TargetSpans

namespace Document

/-- The document has a row, and there is nothing on it but blanks. -/
def BlankRow (d : Document) (row : Nat) : Prop :=
  ∃ l, d.line? row = some l ∧ l.allBlank = true

/-- The document has a row, and something other than blanks is on it. -/
def FilledRow (d : Document) (row : Nat) : Prop :=
  ∃ l, d.line? row = some l ∧ l.allBlank = false

/-- A run of steps up from a row, one for each row above that is not blank, to the row where the
steps end. -/
inductive ClimbsTo (d : Document) : Nat → Nat → Prop
  | top : ClimbsTo d 0 0
  | blank {row : Nat} (above : d.BlankRow row) : ClimbsTo d (row + 1) (row + 1)
  | up {row first : Nat} (above : d.FilledRow row) (further : ClimbsTo d row first) :
      ClimbsTo d (row + 1) first

/-- A run of steps down from a row, one for each row below that is not blank, to the row where the
steps end. -/
inductive SinksTo (d : Document) : Nat → Nat → Prop
  | bottom {row : Nat} (last : row + 1 = d.lineCount) : SinksTo d row row
  | blank {row : Nat} (below : d.BlankRow (row + 1)) : SinksTo d row row
  | down {row last : Nat} (below : d.FilledRow (row + 1)) (further : SinksTo d (row + 1) last) :
      SinksTo d row last

/-- The rows from `first` to `last` are those of the paragraph around a range: they contain the rows
of the range, are not blank outside of it, and cannot be extended. -/
structure IsParagraph (d : Document) (r : Range) (first last : Nat) : Prop where
  first_le : first ≤ r.start.row
  le_last : r.stop.row ≤ last
  last_lt : last < d.lineCount
  filled_above : ∀ row, first ≤ row → row < r.start.row → d.FilledRow row
  filled_below : ∀ row, r.stop.row < row → row ≤ last → d.FilledRow row
  top : first = 0 ∨ d.BlankRow (first - 1)
  bottom : last + 1 = d.lineCount ∨ d.BlankRow (last + 1)

/-- No blank row lies between two rows that the document has, and neither of them is blank. -/
def Connects (d : Document) (first second : Nat) : Prop :=
  ∀ row, (first ≤ row ∧ row ≤ second ∨ second ≤ row ∧ row ≤ first) → d.FilledRow row

/-- The rows of the paragraph around a range. -/
def rowsOfParagraph (d : Document) (r : Range) : Set Nat :=
  Set.Icc (d.paragraphRows r).1 (d.paragraphRows r).2

variable {d : Document} {r : Range} {row first last : Nat}

theorem FilledRow.not_blankRow (filled : d.FilledRow row) : ¬ d.BlankRow row := by
  rintro ⟨l, found, blank⟩
  obtain ⟨other, sameRow, notBlank⟩ := filled
  cases found.symm.trans sameRow
  exact absurd (blank.symm.trans notBlank) (by decide)

/-! ## Steps -/

theorem climbsTo_of_paragraphStart? (reached : d.paragraphStart? row = some first) :
    d.ClimbsTo row first := by
  induction row with
  | zero =>
      cases reached
      exact ClimbsTo.top
  | succ above ih =>
      obtain ⟨l, found, further⟩ := Option.bind_eq_some_iff.mp reached
      cases blank : l.allBlank with
      | true =>
          rw [blank] at further
          cases further
          exact ClimbsTo.blank ⟨l, found, blank⟩
      | false =>
          rw [blank] at further
          exact ClimbsTo.up ⟨l, found, blank⟩ (ih further)

theorem sinksTo_of_paragraphStop? {below : Nat} (count : row + below + 1 = d.lineCount)
    (reached : d.paragraphStop? row below = some last) : d.SinksTo row last := by
  induction below generalizing row with
  | zero =>
      cases reached
      exact SinksTo.bottom count
  | succ below ih =>
      obtain ⟨l, found, further⟩ := Option.bind_eq_some_iff.mp reached
      cases blank : l.allBlank with
      | true =>
          rw [blank] at further
          cases further
          exact SinksTo.blank ⟨l, found, blank⟩
      | false =>
          rw [blank] at further
          exact SinksTo.down ⟨l, found, blank⟩ (ih (by omega) further)

theorem ClimbsTo.le (climbs : d.ClimbsTo row first) : first ≤ row := by
  induction climbs with
  | top => exact Nat.le_refl _
  | blank above => exact Nat.le_refl _
  | up above further ih => exact Nat.le_succ_of_le ih

theorem ClimbsTo.filled (climbs : d.ClimbsTo row first) {k : Nat} (from_first : first ≤ k)
    (below : k < row) : d.FilledRow k := by
  induction climbs with
  | top => omega
  | blank above => omega
  | @up row first above further ih =>
      rcases Nat.lt_succ_iff_lt_or_eq.mp below with higher | rfl
      · exact ih from_first higher
      · exact above

theorem ClimbsTo.stops (climbs : d.ClimbsTo row first) :
    first = 0 ∨ d.BlankRow (first - 1) := by
  induction climbs with
  | top => exact Or.inl rfl
  | blank above => exact Or.inr above
  | up above further ih => exact ih

theorem SinksTo.le (sinks : d.SinksTo row last) : row ≤ last := by
  induction sinks with
  | bottom isLast => exact Nat.le_refl _
  | blank below => exact Nat.le_refl _
  | down below further ih => exact Nat.le_of_succ_le ih

theorem SinksTo.filled (sinks : d.SinksTo row last) {k : Nat} (below : row < k)
    (to_last : k ≤ last) : d.FilledRow k := by
  induction sinks with
  | bottom isLast => omega
  | blank below => omega
  | @down row last next further ih =>
      rcases Nat.lt_or_eq_of_le (Nat.succ_le_of_lt below) with lower | rfl
      · exact ih lower to_last
      · exact next

theorem SinksTo.stops (sinks : d.SinksTo row last) :
    last + 1 = d.lineCount ∨ d.BlankRow (last + 1) := by
  induction sinks with
  | bottom isLast => exact Or.inl isLast
  | blank below => exact Or.inr below
  | down below further ih => exact ih

/-! ## Paragraphs around a range -/

theorem paragraphRows_toward (r : Range) (direction : Direction) :
    d.paragraphRows (r.toward direction) = d.paragraphRows r := by
  simp only [paragraphRows, paragraphRows?, Range.start_toward, Range.stop_toward]

theorem climbsTo_paragraphRows (rows : d.HasRows r) :
    d.ClimbsTo r.start.row (d.paragraphRows r).1 := by
  obtain ⟨first, last, top, _, _, equal, _⟩ := exists_paragraphRows? rows
  rw [equal]
  exact climbsTo_of_paragraphStart? top

theorem sinksTo_paragraphRows (rows : d.HasRows r) :
    d.SinksTo r.stop.row (d.paragraphRows r).2 := by
  obtain ⟨first, last, _, bottom, _, equal, _⟩ := exists_paragraphRows? rows
  have stop := rows.stop_row
  rw [equal]
  exact sinksTo_of_paragraphStop? (by omega) bottom

theorem isParagraph_paragraphRows (rows : d.HasRows r) :
    d.IsParagraph r (d.paragraphRows r).1 (d.paragraphRows r).2 where
  first_le := (climbsTo_paragraphRows rows).le
  le_last := (sinksTo_paragraphRows rows).le
  last_lt := (paragraphRows_spec rows).2.2
  filled_above := fun _ => (climbsTo_paragraphRows rows).filled
  filled_below := fun _ => (sinksTo_paragraphRows rows).filled
  top := (climbsTo_paragraphRows rows).stops
  bottom := (sinksTo_paragraphRows rows).stops

namespace IsParagraph

variable {first' last' : Nat}

/-- A blank row stands right above the paragraph wherever it does not reach the first row. -/
theorem not_filled_above (paragraph : d.IsParagraph r first last) (lower : 0 < first) :
    ¬ d.FilledRow (first - 1) := by
  intro filled
  rcases paragraph.top with top | blank
  · omega
  · exact filled.not_blankRow blank

theorem not_filled_below (paragraph : d.IsParagraph r first last)
    (higher : last + 1 < d.lineCount) : ¬ d.FilledRow (last + 1) := by
  intro filled
  rcases paragraph.bottom with bottom | blank
  · omega
  · exact filled.not_blankRow blank

theorem le_of_isParagraph (one : d.IsParagraph r first last)
    (other : d.IsParagraph r first' last') : first' ≤ first ∧ last ≤ last' := by
  constructor
  · by_contra less
    have reach := other.first_le
    exact other.not_filled_above (by omega) (one.filled_above _ (by omega) (by omega))
  · by_contra more
    have reach := other.le_last
    have inside := one.last_lt
    exact other.not_filled_below (by omega) (one.filled_below _ (by omega) (by omega))

/-- A range has one paragraph around it. -/
theorem unique (one : d.IsParagraph r first last) (other : d.IsParagraph r first' last') :
    first = first' ∧ last = last' := by
  obtain ⟨above, below⟩ := one.le_of_isParagraph other
  obtain ⟨above', below'⟩ := other.le_of_isParagraph one
  exact ⟨Nat.le_antisymm above' above, Nat.le_antisymm below below'⟩

/-- The rows of the paragraph around a range are also the paragraph around all of these rows. -/
theorem of_rows {s : Range} (paragraph : d.IsParagraph r first last)
    (start : s.start.row = first) (stop : s.stop.row = last) : d.IsParagraph s first last where
  first_le := start.ge
  le_last := stop.le
  last_lt := paragraph.last_lt
  filled_above := by
    intro row from_first above
    omega
  filled_below := by
    intro row below to_last
    omega
  top := paragraph.top
  bottom := paragraph.bottom

/-- The paragraph around a row that is not blank holds exactly the rows that no blank row separates
from it. -/
theorem mem_Icc_iff (paragraph : d.IsParagraph r first last) (single : r.start.row = r.stop.row)
    (filled : d.FilledRow r.start.row) {k : Nat} :
    k ∈ Set.Icc first last ↔ d.Connects r.start.row k := by
  have reachUp := paragraph.first_le
  have reachDown := paragraph.le_last
  constructor
  · rintro ⟨from_first, to_last⟩ row between
    rcases Nat.lt_trichotomy row r.start.row with above | same | below
    · exact paragraph.filled_above row (by omega) above
    · exact same ▸ filled
    · exact paragraph.filled_below row (by omega) (by omega)
  · intro connects
    constructor
    · by_contra above
      exact paragraph.not_filled_above (by omega) (connects _ (by omega))
    · by_contra below
      have inside : k < d.lineCount := by
        obtain ⟨l, found, _⟩ := connects k (by omega)
        exact row_lt_of_line? found
      exact paragraph.not_filled_below (by omega) (connects _ (by omega))

end IsParagraph

theorem Connects.symm {a b : Nat} (connects : d.Connects a b) : d.Connects b a :=
  fun row between => connects row between.symm

theorem Connects.trans {a b c : Nat} (first : d.Connects a b) (second : d.Connects b c) :
    d.Connects a c := by
  intro row between
  by_cases near : a ≤ row ∧ row ≤ b ∨ b ≤ row ∧ row ≤ a
  · exact first row near
  · exact second row (by omega)

theorem mem_rowsOfParagraph_iff (rows : d.HasRows r) (single : r.start.row = r.stop.row)
    (filled : d.FilledRow r.start.row) {k : Nat} :
    k ∈ d.rowsOfParagraph r ↔ d.Connects r.start.row k :=
  (isParagraph_paragraphRows rows).mem_Icc_iff single filled

theorem Grows.paragraph_rows {grown : Range} {known context : DelimiterContext}
    (rows : d.HasRows r) (grows : d.Grows r known .paragraph grown context) :
    grown.start.row = (d.paragraphRows r).1 ∧ grown.stop.row = (d.paragraphRows r).2 := by
  cases grows with
  | paragraph whole =>
      obtain ⟨_, _, _, _, start, stop⟩ := bounds_of_rowRange? (paragraphRows_ordered rows) whole
      rw [start, stop]
      exact ⟨rfl, rfl⟩

/-- Growing to a paragraph ends on its first and its last row. -/
theorem exists_expand_paragraph {part : Part} (rows : d.HasRows part.span.range) :
    ∃ t, d.expand .paragraph part = .ok t ∧
      t.range.start.row = (d.paragraphRows part.span.range).1 ∧
      t.range.stop.row = (d.paragraphRows part.span.range).2 := by
  have available : SelectionType.paragraph ≠ .character := by decide
  obtain ⟨grown, context, grows, expanded⟩ := exists_grows rows available
  obtain ⟨start, stop⟩ := grows.paragraph_rows rows
  refine ⟨_, expanded, ?_, ?_⟩
  · rw [TypedSpan.range, Range.start_toward, start]
  · rw [TypedSpan.range, Range.stop_toward, stop]

/-- A paragraph selection ends on the rows where the steps up and down from the range end; they are
the paragraph around the range.  The paragraphs around rows that are not blank partition these rows:
two of them are equal if no blank row lies between, and have no row in common otherwise. -/
theorem paragraphs_partition_rows (d : Document) :
    (∀ part : Part, d.HasPlaces part.span.range → ∃ first last t,
      d.paragraphRows? part.span.range = some (first, last) ∧
        d.ClimbsTo part.span.range.start.row first ∧ d.SinksTo part.span.range.stop.row last ∧
        d.IsParagraph part.span.range first last ∧ d.expand .paragraph part = .ok t ∧
        t.range.start.row = first ∧ t.range.stop.row = last) ∧
    ∀ a b : Range, d.HasPlaces a → d.HasPlaces b → a.start.row = a.stop.row →
      b.start.row = b.stop.row → d.FilledRow a.start.row → d.FilledRow b.start.row →
        (∀ row, row ∈ d.rowsOfParagraph a ↔ d.Connects a.start.row row) ∧
        (d.Connects a.start.row b.start.row → d.rowsOfParagraph a = d.rowsOfParagraph b) ∧
        (¬ d.Connects a.start.row b.start.row →
          d.rowsOfParagraph a ∩ d.rowsOfParagraph b = ∅) := by
  constructor
  · intro part places
    have rows := places.rows
    obtain ⟨t, expanded, start, stop⟩ := exists_expand_paragraph rows
    exact ⟨_, _, t, paragraphRows?_eq rows, climbsTo_paragraphRows rows, sinksTo_paragraphRows rows,
      isParagraph_paragraphRows rows, expanded, start, stop⟩
  · intro a b placesA placesB singleA singleB filledA filledB
    have rowsA := fun k => mem_rowsOfParagraph_iff placesA.rows singleA filledA (k := k)
    have rowsB := fun k => mem_rowsOfParagraph_iff placesB.rows singleB filledB (k := k)
    refine ⟨rowsA, fun connects => ?_, fun apart => ?_⟩
    · ext k
      rw [rowsA, rowsB]
      exact ⟨connects.symm.trans, connects.trans⟩
    · rw [Set.eq_empty_iff_forall_notMem]
      rintro k ⟨inA, inB⟩
      exact apart (((rowsA k).mp inA).trans ((rowsB k).mp inB).symm)

/-- The rows `a`, a blank one, `b` and an indented `c`. -/
def twoParagraphs : Document := ⟨⟨1⟩, "plaintext", ['a', '\n', ' ', '\n', 'b', '\n', '\t', 'c']⟩

theorem connects_twoParagraphs : twoParagraphs.Connects 2 3 := by
  intro row between
  obtain rfl | rfl : row = 2 ∨ row = 3 := by omega
  · exact ⟨_, rfl, by decide⟩
  · exact ⟨_, rfl, by decide⟩

/-- A backward range over the last two rows has them as its paragraph, which is that of either of
them; the first row has a paragraph of its own. -/
theorem twoParagraphs_partition :
    (∃ t, twoParagraphs.expand .paragraph { span := ⟨⟨1⟩, ⟨⟨3, 1⟩, ⟨2, 0⟩⟩⟩ } = .ok t ∧
      t.range.start.row = 2 ∧ t.range.stop.row = 3) ∧
    twoParagraphs.rowsOfParagraph (.point ⟨2, 0⟩) =
      twoParagraphs.rowsOfParagraph ⟨⟨3, 2⟩, ⟨3, 1⟩⟩ ∧
    twoParagraphs.rowsOfParagraph (.point ⟨0, 1⟩) ∩
      twoParagraphs.rowsOfParagraph (.point ⟨2, 0⟩) = ∅ := by
  obtain ⟨grown, partition⟩ := paragraphs_partition_rows twoParagraphs
  have filled : ∀ row ∈ [0, 2, 3], twoParagraphs.FilledRow row := by
    simp only [List.forall_mem_cons]
    exact ⟨⟨_, rfl, by decide⟩, ⟨_, rfl, by decide⟩, ⟨_, rfl, by decide⟩, by simp⟩
  refine ⟨?_, ?_, ?_⟩
  · obtain ⟨first, last, t, rows, _, _, _, expanded, start, stop⟩ :=
      grown { span := ⟨⟨1⟩, ⟨⟨3, 1⟩, ⟨2, 0⟩⟩⟩ } ⟨rfl, rfl⟩
    cases rows
    exact ⟨t, expanded, start, stop⟩
  · exact (partition (.point ⟨2, 0⟩) ⟨⟨3, 2⟩, ⟨3, 1⟩⟩ ⟨rfl, rfl⟩ ⟨rfl, rfl⟩ rfl rfl
      (filled 2 (by simp)) (filled 3 (by simp))).2.1 connects_twoParagraphs
  · refine (partition (.point ⟨0, 1⟩) (.point ⟨2, 0⟩) ⟨rfl, rfl⟩ ⟨rfl, rfl⟩ rfl rfl
      (filled 0 (by simp)) (filled 2 (by simp))).2.2 fun connects => ?_
    obtain ⟨_, found, filledBlank⟩ := connects 1 (by decide)
    cases found
    exact absurd filledBlank (by decide)

end Document

end TargetSpans
