import TargetSpans.Proofs.Paragraphs

/-!
# Growing what has been grown

A selection type has nothing left to do where it has been applied before.  It finds the same rows
around the rows that it has found, and the delimiters that came with them are either trusted or the
ones that it finds again.  Of two types the wider one decides: rows that are taken on the way to a
paragraph or to the whole document leave no trace in its bounds.
-/

namespace TargetSpans

open Answer

/-- A typed span as a part, to be grown further. -/
def TypedSpan.part (t : TypedSpan) : Part := ⟨t.span, t.context⟩

namespace Document

variable {d : Document} {r grown : Range} {known context : DelimiterContext}
  {selectionType : SelectionType}

namespace Grows

/-- What a range can grow to is what it does grow to. -/
theorem grow_eq (rows : d.HasRows r) (grows : d.Grows r known selectionType grown context) :
    d.grow r known selectionType = .ok (grown, context) := by
  have fromRows : ∀ (rows? : Option Range) (fresh? : Range → Option DelimiterContext),
      rows? = some grown → (known.inList = true → context = known) →
      (known.inList = false → fresh? grown = some context) →
      (do
        let rows ← ofOption rows?
        let context ← if known.inList then pure known else ofOption (fresh? rows)
        return (rows, context)) = .ok (grown, context) := by
    intro rows? fresh? whole kept fresh
    refine bind_eq_ok_iff.mpr ⟨grown, ofOption_eq_ok_iff.mpr whole, ?_⟩
    cases listed : known.inList with
    | true => exact congrArg (fun c => Except.ok (grown, c)) (kept listed).symm
    | false => exact bind_eq_ok_iff.mpr ⟨context, ofOption_eq_ok_iff.mpr (fresh listed), rfl⟩
  cases grows with
  | token kept inferred =>
      simp only [grow]
      cases empty : known.isEmpty with
      | true => exact bind_eq_ok_iff.mpr ⟨context, ofOption_eq_ok_iff.mpr (inferred empty), rfl⟩
      | false => exact congrArg (fun c => Except.ok (r, c)) (kept empty).symm
  | line whole kept fresh => exact fromRows _ d.lineDelimiters? whole kept fresh
  | paragraph whole kept fresh =>
      simp only [grow, paragraphRows?_eq rows]
      exact fromRows _ d.paragraphDelimiters? whole kept fresh
  | document => rfl

theorem hasRows (rows : d.HasRows r) (grows : d.Grows r known selectionType grown context) :
    d.HasRows grown := by
  cases grows with
  | token => exact rows
  | line whole => exact hasRows_of_rowRange? whole
  | paragraph whole => exact hasRows_of_rowRange? whole
  | document =>
      have last := row_lt_of_contains (d := d) contains_finish
      exact ⟨Nat.zero_lt_of_lt last, last⟩

/-- The rows of a line selection are those of the range. -/
theorem line_rows (grows : d.Grows r known .line grown context) :
    grown.start.row = r.start.row ∧ grown.stop.row = r.stop.row := by
  cases grows with
  | line whole =>
      have upright := Position.row_le_of_le r.start_le_stop
      obtain ⟨_, _, _, _, start, stop⟩ := bounds_of_rowRange? upright whole
      rw [start, stop]
      exact ⟨rfl, rfl⟩

/-- The paragraph around a paragraph is the paragraph itself. -/
theorem paragraphRows_eq (rows : d.HasRows r)
    (grows : d.Grows r known .paragraph grown context) :
    d.paragraphRows grown = d.paragraphRows r := by
  obtain ⟨start, stop⟩ := grows.paragraph_rows rows
  have again := isParagraph_paragraphRows (grows.hasRows rows)
  have whole := (isParagraph_paragraphRows rows).of_rows start stop
  obtain ⟨first, last⟩ := again.unique whole
  exact Prod.ext first last

/-- Growing again in the direction of the range changes nothing: the rows are still the same rows,
and delimiters that are not trusted are the ones that are found once more. -/
theorem again (rows : d.HasRows r) (grows : d.Grows r known selectionType grown context) :
    d.Grows (grown.toward r.direction) context selectionType grown context := by
  have found : ∀ {fresh? : Option DelimiterContext}, (known.inList = true → context = known) →
      (known.inList = false → fresh? = some context) →
      context.inList = false → fresh? = some context := by
    intro fresh? kept fresh unlisted
    cases listed : known.inList with
    | true => exact absurd (kept listed ▸ unlisted) (by simp [listed])
    | false => exact fresh listed
  cases selectionType with
  | token =>
      cases grows with
      | token kept inferred =>
          rw [Range.toward_eq_self_of_direction rfl]
          -- Nothing is known after growing only if nothing was known before: the same guess again.
          refine Grows.token (fun _ => rfl) fun unknown => ?_
          cases empty : known.isEmpty with
          | true => exact inferred empty
          | false => exact absurd (kept empty ▸ unknown) (by simp [empty])
  | line =>
      obtain ⟨start, stop⟩ := grows.line_rows
      cases grows with
      | line whole kept fresh =>
          refine Grows.line ?_ (fun _ => rfl) (found kept fresh)
          rw [Range.start_toward, Range.stop_toward, start, stop]
          exact whole
  | paragraph =>
      have same := grows.paragraphRows_eq rows
      cases grows with
      | paragraph whole kept fresh =>
          refine Grows.paragraph ?_ (fun _ => rfl) (found kept fresh)
          rw [paragraphRows_toward, same]
          exact whole
  | document =>
      cases grows with
      | document => exact Grows.document
  | character => nomatch grows

/-! ## Absorption -/

variable {lines paragraph wider : Range} {c c' : DelimiterContext} {direction : Direction}

/-- The paragraph around some lines is the one around the range that has grown to them. -/
theorem paragraph_of_line (line : d.Grows r known .line lines c)
    (whole : d.Grows r known .paragraph paragraph context)
    (further : d.Grows (lines.toward direction) c .paragraph wider c') : wider = paragraph := by
  obtain ⟨start, stop⟩ := line.line_rows
  have same : d.paragraphRows (lines.toward direction) = d.paragraphRows r := by
    rw [paragraphRows_toward]
    simp only [paragraphRows, paragraphRows?, start, stop]
  cases whole with
  | paragraph found =>
      cases further with
      | paragraph found' =>
          rw [same] at found'
          exact Option.some.inj (found'.symm.trans found)

/-- The lines of a paragraph are the paragraph. -/
theorem line_of_paragraph (rows : d.HasRows r) (whole : d.Grows r known .paragraph paragraph c)
    (further : d.Grows (paragraph.toward direction) c .line lines c') : lines = paragraph := by
  obtain ⟨start, stop⟩ := whole.paragraph_rows rows
  cases whole with
  | paragraph found =>
      cases further with
      | line found' =>
          rw [Range.start_toward, Range.stop_toward, start, stop] at found'
          exact Option.some.inj (found'.symm.trans found)

end Grows

section

variable {part : Part}

theorem Grows.expand_eq {s : Range} (rows : d.HasRows part.span.range)
    (grows : d.Grows part.span.range part.context selectionType grown context)
    (turned : grown.toward part.span.range.direction = s) :
    d.expand selectionType part =
      .ok { span := { part.span with range := s }, selectionType, context } := by
  subst turned
  exact bind_eq_ok_iff.mpr ⟨_, grows.grow_eq rows, rfl⟩

theorem exists_expand_again (rows : d.HasRows part.span.range)
    (available : selectionType ≠ .character) :
    ∃ t, d.expand selectionType part = .ok t ∧ d.expand selectionType t.part = .ok t ∧
      (t.range.isEmpty = false → t.range.direction = part.span.range.direction) := by
  obtain ⟨grown, context, grows, expanded⟩ := exists_grows rows available
  refine ⟨_, expanded, ?_, fun filled => ?_⟩
  · exact (grows.again rows).expand_eq ((grows.hasRows rows).toward _)
      (Range.toward_direction_toward grown _)
  · rw [TypedSpan.range, Range.isEmpty_toward] at filled
    exact Range.direction_toward filled _

/-- A part grows to one of the same document that can be grown further. -/
theorem exists_expand_grows (rows : d.HasRows part.span.range)
    (available : selectionType ≠ .character) :
    ∃ t grown, d.expand selectionType part = .ok t ∧
      d.Grows part.span.range part.context selectionType grown t.part.context ∧
      t.part.span.range = grown.toward part.span.range.direction ∧
      d.HasRows t.part.span.range := by
  obtain ⟨grown, context, grows, expanded⟩ := exists_grows rows available
  exact ⟨_, grown, expanded, grows, rfl, (grows.hasRows rows).toward _⟩

/-- Lines on the way to a paragraph, or after it, leave its bounds as they are. -/
theorem exists_expand_absorbed (rows : d.HasRows part.span.range) :
    ∃ line paragraph lineThenParagraph paragraphThenLine,
      d.expand .line part = .ok line ∧ d.expand .paragraph part = .ok paragraph ∧
      d.expand .paragraph line.part = .ok lineThenParagraph ∧
      d.expand .line paragraph.part = .ok paragraphThenLine ∧
      lineThenParagraph.range.SameBounds paragraph.range ∧
      paragraphThenLine.range.SameBounds paragraph.range := by
  have isLine : SelectionType.line ≠ .character := by decide
  have isParagraph : SelectionType.paragraph ≠ .character := by decide
  obtain ⟨line, lines, toLine, ofLine, turned, lineRows⟩ := exists_expand_grows rows isLine
  obtain ⟨paragraph, whole, toParagraph, ofParagraph, turned', paragraphRows⟩ :=
    exists_expand_grows rows isParagraph
  obtain ⟨lineThenParagraph, wider, fromLine, further, range, _⟩ :=
    exists_expand_grows lineRows isParagraph
  obtain ⟨paragraphThenLine, inner, fromParagraph, further', range', _⟩ :=
    exists_expand_grows paragraphRows isLine
  rw [turned] at further
  rw [turned'] at further'
  obtain rfl := Grows.paragraph_of_line ofLine ofParagraph further
  obtain rfl := Grows.line_of_paragraph rows ofParagraph further'
  refine ⟨line, paragraph, lineThenParagraph, paragraphThenLine, toLine, toParagraph, fromLine,
    fromParagraph, ?_, ?_⟩
  · change lineThenParagraph.part.span.range.SameBounds paragraph.part.span.range
    rw [range, turned']
    exact (Range.SameBounds.toward _ _).trans (Range.SameBounds.toward _ _).symm
  · change paragraphThenLine.part.span.range.SameBounds paragraph.part.span.range
    rw [range', turned']
    exact (Range.SameBounds.toward _ _).trans (Range.SameBounds.toward _ _).symm

end

/-- Every selection type but the reserved one can be applied to every part, and then once more with
no effect; where there is anything to select, the direction stays that of the part.  Lines are
absorbed by the paragraph around them, and everything is absorbed by the document. -/
theorem expand_settles (d : Document) {part : Part} (places : d.HasPlaces part.span.range) :
    (∀ selectionType, selectionType ≠ .character →
      ∃ t, d.expand selectionType part = .ok t ∧ d.expand selectionType t.part = .ok t ∧
        (t.range.isEmpty = false → t.range.direction = part.span.range.direction)) ∧
    (∃ line paragraph lineThenParagraph paragraphThenLine,
      d.expand .line part = .ok line ∧ d.expand .paragraph part = .ok paragraph ∧
      d.expand .paragraph line.part = .ok lineThenParagraph ∧
      d.expand .line paragraph.part = .ok paragraphThenLine ∧
      lineThenParagraph.range.SameBounds paragraph.range ∧
      paragraphThenLine.range.SameBounds paragraph.range) ∧
    ∃ whole, d.expand .document part = .ok whole ∧
      ∀ selectionType, selectionType ≠ .character →
        ∃ t again, d.expand selectionType part = .ok t ∧ d.expand .document t.part = .ok again ∧
          again.range.SameBounds whole.range := by
  have rows := places.rows
  refine ⟨fun _ => exists_expand_again rows, exists_expand_absorbed rows, ?_⟩
  refine ⟨_, Grows.document.expand_eq rows rfl, fun selectionType available => ?_⟩
  obtain ⟨t, _, expanded, _, _, grownRows⟩ := exists_expand_grows rows available
  refine ⟨t, _, expanded, Grows.document.expand_eq grownRows rfl, ?_⟩
  exact (Range.SameBounds.toward _ _).trans (Range.SameBounds.toward _ _).symm

/-- The rows of an indented `a`, of `b`, and an empty last one. -/
def lettersAndBlank : Document := ⟨⟨1⟩, "plaintext", [' ', 'a', '\n', 'b', '\n']⟩

/-- A backward selection within the first row grows to both rows at once or by way of its own row,
and stays backward. -/
theorem lettersAndBlank_settles :
    ∃ line paragraph lineThenParagraph,
      lettersAndBlank.expand .line { span := ⟨⟨1⟩, ⟨⟨0, 2⟩, ⟨0, 1⟩⟩⟩ } = .ok line ∧
      lettersAndBlank.expand .line line.part = .ok line ∧
      line.range = ⟨⟨0, 2⟩, ⟨0, 1⟩⟩ ∧ line.range.direction = .backward ∧
      lettersAndBlank.expand .paragraph { span := ⟨⟨1⟩, ⟨⟨0, 2⟩, ⟨0, 1⟩⟩⟩ } = .ok paragraph ∧
      paragraph.range = ⟨⟨1, 1⟩, ⟨0, 1⟩⟩ ∧
      lettersAndBlank.expand .paragraph line.part = .ok lineThenParagraph ∧
      lineThenParagraph.range.SameBounds paragraph.range := by
  let part : Part := { span := ⟨⟨1⟩, ⟨⟨0, 2⟩, ⟨0, 1⟩⟩⟩ }
  have places : lettersAndBlank.HasPlaces part.span.range := ⟨rfl, rfl⟩
  obtain ⟨again, absorbed, _⟩ := expand_settles lettersAndBlank places
  obtain ⟨line, expanded, settled, direction⟩ := again .line (by decide)
  obtain ⟨_, paragraph, lineThenParagraph, _, toLine, toParagraph, further, _, same, _⟩ := absorbed
  cases expanded.symm.trans toLine
  refine ⟨line, paragraph, lineThenParagraph, expanded, settled, ?_, ?_, toParagraph, ?_, further,
    same⟩
  · cases expanded
    rfl
  · apply direction
    cases expanded
    rfl
  · cases toParagraph
    rfl

end Document

end TargetSpans
