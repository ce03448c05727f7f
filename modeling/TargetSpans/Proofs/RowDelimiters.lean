import TargetSpans.Proofs.Paragraphs
import TargetSpans.Proofs.RangeTexts
import TargetSpans.Proofs.Separators
import TargetSpans.Proofs.Widening

/-!
# What delimits whole rows

The delimiters of lines and of paragraphs are found by counting rows, without a look at what is on
them.  They hold no text for all that: those of a line reach over one break, and those of a
paragraph reach further over one row only where that row is blank, since otherwise it would be a row
of the paragraph.  Taking out the rows together with one of their delimiters therefore takes out
nothing else but blanks and line breaks.
-/

namespace TargetSpans

namespace LineBreak

/-- Each character of a break is a break of its own. -/
theorem ofChar?_isSome_of_mem_chars {b : LineBreak} {c : Char} (member : c ∈ b.chars) :
    (ofChar? c).isSome := by
  cases b with
  | crlf =>
      simp only [chars, List.mem_cons, List.not_mem_nil, or_false] at member
      rcases member with rfl | rfl <;> rfl
  | lineFeed | verticalTab | formFeed | carriageReturn | nextLine | lineSeparator
  | paragraphSeparator =>
      cases List.mem_singleton.mp member
      rfl

end LineBreak

namespace Text

/-- There is nothing in a text but blanks and line breaks. -/
def IsSpace (t : Text) : Prop :=
  ∀ c ∈ t, isBlank c = true ∨ (LineBreak.ofChar? c).isSome

theorem IsSpace.append {s t : Text} (first : s.IsSpace) (second : t.IsSpace) :
    IsSpace (s ++ t) := by
  intro c member
  rcases List.mem_append.mp member with left | right
  · exact first c left
  · exact second c right

theorem isSpace_endingChars (l : Line) : IsSpace l.endingChars := by
  intro c member
  right
  cases ending : l.ending with
  | none => simp [Line.endingChars, ending] at member
  | some b =>
      apply LineBreak.ofChar?_isSome_of_mem_chars (b := b)
      simpa [Line.endingChars, ending] using member

end Text

namespace Document

variable {d : Document} {p q : Position} {r s : Range} {l : Line} {row first last : Nat}

/-! ## Space -/

/-- Nothing but blanks and line breaks stands between one position and a later one. -/
structure OnlySpace (d : Document) (p q : Position) : Prop where
  ordered : p ≤ q
  gap : ∃ gap, d.textOf? ⟨p, q⟩ = some gap ∧ gap.IsSpace

theorem OnlySpace.trans {next : Position} (first : d.OnlySpace p q) (second : d.OnlySpace q next)
    (inside : next.row < d.lineCount) : d.OnlySpace p next := by
  obtain ⟨s, text, space⟩ := first.gap
  obtain ⟨t, text', space'⟩ := second.gap
  exact ⟨le_trans first.ordered second.ordered, s ++ t,
    textOf?_append first.ordered second.ordered inside text text', space.append space'⟩

/-- The break of a row stands between the end of the row and the start of the next one. -/
theorem onlySpace_break (found : d.line? row = some l) (further : row + 1 < d.lineCount) :
    d.OnlySpace ⟨row, l.length⟩ ⟨row + 1, 0⟩ := by
  obtain ⟨next, below⟩ := exists_line? further
  have ordered : (⟨row, l.length⟩ : Position) ≤ ⟨row + 1, 0⟩ :=
    Position.le_of_row_lt (Nat.lt_succ_self row)
  refine ⟨ordered, l.endingChars, ?_, Text.isSpace_endingChars l⟩
  obtain ⟨before, after, split, start⟩ := Text.exists_append_of_line found
  have first : d.index ⟨row, l.length⟩ = (before ++ l.content).length := by
    rw [index_eq_of_line? found, Nat.min_self, List.length_append, start, Line.length]
  have second : d.index ⟨row + 1, 0⟩ =
      (before ++ l.content).length + l.endingChars.length := by
    rw [index_eq_of_line? below, Nat.zero_min, Nat.add_zero, ← Text.rowStart_add_line found,
      List.length_append, start, Line.length]
  have text : d.text = (before ++ l.content) ++ l.endingChars ++ after := by
    rw [split, Line.chars]
    simp only [List.append_assoc]
  simp only [textOf?, Range.start_mk_of_le ordered, Range.stop_mk_of_le ordered, first, second,
    if_pos (Nat.le_add_right _ _), Text.drop_take_of_append text]

/-- The indentation of a row is blank. -/
theorem onlySpace_indent (found : d.line? row = some l) :
    d.OnlySpace ⟨row, 0⟩ ⟨row, l.indent⟩ := by
  obtain ⟨short, blanks⟩ := l.isGreatest_indent.1
  refine ⟨Position.mk_le_mk (Nat.zero_le _), l.content.take l.indent,
    textOf?_of_line found (Nat.zero_le _) short, ?_⟩
  exact fun c member => Or.inl (blanks c member)

theorem onlySpace_blankRow (found : d.line? row = some l) (blank : l.allBlank = true) :
    d.OnlySpace ⟨row, 0⟩ ⟨row, l.length⟩ := by
  have space := onlySpace_indent found
  rwa [l.indent_eq_length_iff.mpr blank] at space

/-- From the end of a row down to the start of a lower one there is only space if all rows between
them are blank. -/
theorem onlySpace_down (found : d.line? row = some l) {n : Nat}
    (inside : row + 1 + n < d.lineCount)
    (blank : ∀ k, row < k → k < row + 1 + n → d.BlankRow k) :
    d.OnlySpace ⟨row, l.length⟩ ⟨row + 1 + n, 0⟩ := by
  induction n with
  | zero => exact onlySpace_break found inside
  | succ n ih =>
      have above : row + 1 + n < d.lineCount := Nat.lt_of_succ_lt inside
      obtain ⟨next, below, nextBlank⟩ := blank (row + 1 + n) (by omega) (by omega)
      have upTo := ih above fun k lower higher => blank k lower (by omega)
      have past := upTo.trans (onlySpace_blankRow below nextBlank) above
      exact past.trans (onlySpace_break below inside) inside

/-! ## Delimiters of rows -/

/-- The rows above and below some rows that their delimiters reach, with nothing but blank rows in
between.  A side has no delimiter only at the edge of the document. -/
structure Flanks (d : Document) (first last : Nat) (above below : Option Nat) : Prop where
  above_isSome_iff : above.isSome ↔ 0 < first
  below_isSome_iff : below.isSome ↔ last + 1 < d.lineCount
  above_lt : ∀ row, above = some row → row < first
  lt_below : ∀ row, below = some row → last < row ∧ row < d.lineCount
  blank_above : ∀ row, above = some row → ∀ k, row < k → k < first → d.BlankRow k
  blank_below : ∀ row, below = some row → ∀ k, last < k → k < row → d.BlankRow k

/-- Down to the first character of the rows that is not blank there is only space. -/
theorem Flanks.onlySpace_above {above below : Option Nat} {top : Line}
    (flanks : d.Flanks first last above below) (isAbove : above = some row)
    (upperLine : d.line? row = some l) (topLine : d.line? first = some top) :
    d.OnlySpace ⟨row, l.length⟩ ⟨first, top.indent⟩ := by
  have inside := row_lt_of_line? topLine
  obtain ⟨n, rfl⟩ := Nat.exists_eq_add_of_le (Nat.succ_le_of_lt (flanks.above_lt row isAbove))
  have down := onlySpace_down upperLine inside (flanks.blank_above row isAbove)
  exact down.trans (onlySpace_indent topLine) inside

theorem Flanks.onlySpace_below {above below : Option Nat}
    (flanks : d.Flanks first last above below) (isBelow : below = some row)
    (bottomLine : d.line? last = some l) : d.OnlySpace ⟨last, l.length⟩ ⟨row, 0⟩ := by
  obtain ⟨lower, inside⟩ := flanks.lt_below row isBelow
  obtain ⟨n, rfl⟩ := Nat.exists_eq_add_of_le (Nat.succ_le_of_lt lower)
  exact onlySpace_down bottomLine inside (flanks.blank_below _ isBelow)

/-- What a context says of a selection of rows.  Its delimiters reach to the end of a row above and
to the start of a row below, and what they add to the text of the selection is space. -/
structure DelimitsRows (d : Document) (r : Range) (c : DelimiterContext) : Prop where
  leading_isSome_iff : c.leading.isSome ↔ 0 < r.start.row
  trailing_isSome_iff : c.trailing.isSome ↔ r.stop.row + 1 < d.lineCount
  leading : ∀ delimiter, c.leading = some delimiter →
    d.lineEnd? delimiter.start.row = some delimiter.start ∧ delimiter.start.row < r.start.row ∧
      delimiter.stop = r.start ∧ ∃ gap selected, d.textOf? delimiter = some gap ∧ gap.IsSpace ∧
        d.textOf? r = some selected ∧ d.textOf? (r.union delimiter) = some (gap ++ selected)
  trailing : ∀ delimiter, c.trailing = some delimiter →
    delimiter.start = r.stop ∧ r.stop.row < delimiter.stop.row ∧ delimiter.stop.col = 0 ∧
      ∃ gap selected, d.textOf? delimiter = some gap ∧ gap.IsSpace ∧
        d.textOf? r = some selected ∧ d.textOf? (r.union delimiter) = some (selected ++ gap)
  outer : ∃ bottom outer, d.line? r.stop.row = some bottom ∧ c.outer = some outer ∧
    outer = ⟨⟨r.start.row, 0⟩, ⟨r.stop.row, bottom.length⟩⟩ ∧ outer.Covers r

/-- Taken together with the space before it, a range adds its text to that space. -/
theorem OnlySpace.textOf?_union_before (space : d.OnlySpace p r.start) (rows : d.HasRows r) :
    ∃ gap selected, d.textOf? ⟨p, r.start⟩ = some gap ∧ gap.IsSpace ∧
      d.textOf? r = some selected ∧ d.textOf? (r.union ⟨p, r.start⟩) = some (gap ++ selected) := by
  obtain ⟨gap, text, isSpace⟩ := space.gap
  obtain ⟨selected, own⟩ := exists_textOf? rows
  have both := le_trans space.ordered r.start_le_stop
  have together : d.textOf? (r.union ⟨p, r.start⟩) = d.textOf? ⟨p, r.stop⟩ := by
    refine textOf?_congr ⟨?_, ?_⟩
    · rw [Range.start_union, Range.start_mk_of_le space.ordered, Range.start_mk_of_le both,
        min_eq_right space.ordered]
    · rw [Range.stop_union, Range.stop_mk_of_le space.ordered, Range.stop_mk_of_le both,
        max_eq_left r.start_le_stop]
  refine ⟨gap, selected, text, isSpace, own, together.trans ?_⟩
  have bounds := textOf?_congr (d := d) (Range.SameBounds.bounds r)
  exact textOf?_append space.ordered r.start_le_stop rows.stop_row text (bounds.trans own)

/-- Taken together with the space after it, a range adds that space to its text. -/
theorem OnlySpace.textOf?_union_after (space : d.OnlySpace r.stop q) (rows : d.HasRows r)
    (inside : q.row < d.lineCount) :
    ∃ gap selected, d.textOf? ⟨r.stop, q⟩ = some gap ∧ gap.IsSpace ∧
      d.textOf? r = some selected ∧ d.textOf? (r.union ⟨r.stop, q⟩) = some (selected ++ gap) := by
  obtain ⟨gap, text, isSpace⟩ := space.gap
  obtain ⟨selected, own⟩ := exists_textOf? rows
  have both := le_trans r.start_le_stop space.ordered
  have together : d.textOf? (r.union ⟨r.stop, q⟩) = d.textOf? ⟨r.start, q⟩ := by
    refine textOf?_congr ⟨?_, ?_⟩
    · rw [Range.start_union, Range.start_mk_of_le space.ordered, Range.start_mk_of_le both,
        min_eq_left r.start_le_stop]
    · rw [Range.stop_union, Range.stop_mk_of_le space.ordered, Range.stop_mk_of_le both,
        max_eq_right space.ordered]
  refine ⟨gap, selected, text, isSpace, own, together.trans ?_⟩
  have bounds := textOf?_congr (d := d) (Range.SameBounds.bounds r)
  exact textOf?_append r.start_le_stop space.ordered inside (bounds.trans own) text

/-- The delimiters of a selection of rows hold nothing but space if no filled row is skipped to
reach their ends. -/
theorem delimitsRows_of_rowDelimiters? {rows : Range} {above below : Option Nat}
    {c : DelimiterContext} (ordered : first ≤ last) (whole : d.rowRange? first last = some rows)
    (flanks : d.Flanks first last above below)
    (found : d.rowDelimiters? rows above below = some c) : d.DelimitsRows rows c := by
  obtain ⟨top, bottom, topLine, bottomLine, start, stop⟩ := bounds_of_rowRange? ordered whole
  obtain ⟨leading, trailing, line, lastLine, outer⟩ := of_rowDelimiters?_eq_some found
  have inside := hasRows_of_rowRange? whole
  refine ⟨?_, ?_, ?_, ?_, line, _, lastLine, outer, rfl,
    fullRows_covers_rowRange ordered whole lastLine⟩
  · have present : c.leading.isSome ↔ above.isSome := by
      rcases leading with ⟨rfl, none⟩ | ⟨row, upper, rfl, _, some⟩
      · simp [none]
      · simp [some]
    rw [present, flanks.above_isSome_iff, start]
  · rw [trailing, Option.isSome_map, flanks.below_isSome_iff, stop]
  · intro delimiter isLeading
    rcases leading with ⟨_, none⟩ | ⟨row, upper, isAbove, upperLine, some⟩
    · cases none.symm.trans isLeading
    · cases some.symm.trans isLeading
      have space := flanks.onlySpace_above isAbove upperLine topLine
      rw [← start] at space
      rw [Range.start_mk_of_le space.ordered, Range.stop_mk_of_le space.ordered]
      refine ⟨lineEnd?_of_line? upperLine, ?_, rfl, space.textOf?_union_before inside⟩
      rw [start]
      exact flanks.above_lt row isAbove
  · intro delimiter isTrailing
    obtain ⟨row, isBelow, rfl⟩ := Option.map_eq_some_iff.mp (trailing.symm.trans isTrailing)
    obtain ⟨lower, rowInside⟩ := flanks.lt_below row isBelow
    have space := flanks.onlySpace_below isBelow bottomLine
    rw [← stop] at space
    rw [Range.start_mk_of_le space.ordered, Range.stop_mk_of_le space.ordered]
    refine ⟨rfl, ?_, rfl, space.textOf?_union_after inside rowInside⟩
    rw [stop]
    exact lower

/-- Turning a selection of rows around changes nothing about its delimiters. -/
theorem DelimitsRows.toward {c : DelimiterContext} (delimits : d.DelimitsRows r c)
    (direction : Direction) : d.DelimitsRows (r.toward direction) c := by
  have own : d.textOf? (r.toward direction) = d.textOf? r :=
    textOf?_congr (Range.SameBounds.toward r direction)
  have together : ∀ s, d.textOf? ((r.toward direction).union s) = d.textOf? (r.union s) := by
    intro s
    refine textOf?_congr ⟨?_, ?_⟩
    · rw [Range.start_union, Range.start_union, Range.start_toward]
    · rw [Range.stop_union, Range.stop_union, Range.stop_toward]
  obtain ⟨leading_isSome_iff, trailing_isSome_iff, leading, trailing, outer⟩ := delimits
  constructor
  all_goals simpa only [Range.start_toward, Range.stop_toward, Range.covers_toward, own, together]

/-! ## Lines and paragraphs -/

theorem flanks_line (first last : Nat) :
    d.Flanks first last (match first with | 0 => none | row + 1 => some row)
      (if last + 1 < d.lineCount then some (last + 1) else none) where
  above_isSome_iff := by cases first <;> simp
  below_isSome_iff := by split <;> simp [*]
  above_lt := by
    intro row isAbove
    cases first with
    | zero => cases isAbove
    | succ upper =>
        cases isAbove
        exact Nat.lt_succ_self row
  lt_below := by
    intro row isBelow
    split at isBelow
    · cases isBelow
      exact ⟨Nat.lt_succ_self last, ‹_›⟩
    · cases isBelow
  blank_above := by
    intro row isAbove k lower higher
    cases first with
    | zero => cases isAbove
    | succ upper =>
        cases isAbove
        omega
  blank_below := by
    intro row isBelow k lower higher
    split at isBelow
    · cases isBelow
      omega
    · cases isBelow

/-- The row that a paragraph delimiter skips is the blank one at which the paragraph stops. -/
theorem flanks_paragraph (first last : Nat) : d.IsParagraph r first last →
    d.Flanks first last (match first with | 0 => none | 1 => some 0 | row + 2 => some row)
      (if last + 2 < d.lineCount then some (last + 2)
        else if last + 1 < d.lineCount then some (last + 1) else none) := by
  intro paragraph
  constructor
  case above_isSome_iff => split <;> simp
  case below_isSome_iff => split_ifs <;> simp <;> omega
  case above_lt =>
    intro row isAbove
    split at isAbove
    · cases isAbove
    · cases isAbove
      omega
    · cases isAbove
      omega
  case lt_below =>
    intro row isBelow
    split_ifs at isBelow
    · cases isBelow
      omega
    · cases isBelow
      omega
  case blank_above =>
    intro row isAbove k lower higher
    split at isAbove
    case h_1 => cases isAbove
    case h_2 =>
      cases isAbove
      omega
    case h_3 upper =>
      cases isAbove
      obtain rfl : k = row + 1 := by omega
      exact paragraph.top.resolve_left (by omega)
  case blank_below =>
    intro row isBelow k lower higher
    split_ifs at isBelow
    · cases isBelow
      obtain rfl : k = last + 1 := by omega
      exact paragraph.bottom.resolve_left (by omega)
    · cases isBelow
      omega

section

variable {rows : Range} {c : DelimiterContext} (ordered : first ≤ last)
  (whole : d.rowRange? first last = some rows)

include ordered whole

theorem delimitsRows_of_lineDelimiters? (found : d.lineDelimiters? rows = some c) :
    d.DelimitsRows rows c := by
  obtain ⟨_, _, _, _, start, stop⟩ := bounds_of_rowRange? ordered whole
  refine delimitsRows_of_rowDelimiters? ordered whole ?_ found
  rw [start, stop]
  exact flanks_line first last

theorem delimitsRows_of_paragraphDelimiters? (paragraph : d.IsParagraph r first last)
    (found : d.paragraphDelimiters? rows = some c) : d.DelimitsRows rows c := by
  obtain ⟨_, _, _, _, start, stop⟩ := bounds_of_rowRange? ordered whole
  refine delimitsRows_of_rowDelimiters? ordered whole ?_ found
  rw [start, stop]
  exact flanks_paragraph first last paragraph

end

theorem Grows.delimitsRows {known context : DelimiterContext} {selectionType : SelectionType}
    {grown : Range} (rows : d.HasRows r) (unlisted : known.inList = false)
    (whole : selectionType = .line ∨ selectionType = .paragraph)
    (grows : d.Grows r known selectionType grown context) : d.DelimitsRows grown context := by
  cases grows with
  | line found _ fresh =>
      have ordered := Position.row_le_of_le r.start_le_stop
      exact delimitsRows_of_lineDelimiters? ordered found (fresh unlisted)
  | paragraph found _ fresh =>
      have paragraph := isParagraph_paragraphRows rows
      have ordered := paragraphRows_ordered rows
      exact delimitsRows_of_paragraphDelimiters? ordered found paragraph (fresh unlisted)
  | token | document => rcases whole with equal | equal <;> cases equal

/-- Lines and paragraphs that are not known to be items of a list are delimited by space: there is a
delimiter on each side that is not the edge of the document, it reaches from the selection to the
next row or the one after it, and with the selection it takes out nothing but blanks and line
breaks.  The outer range takes in the indentation and nothing outside of the rows. -/
theorem expand_delimits_rows (d : Document) {selectionType : SelectionType}
    (whole : selectionType = .line ∨ selectionType = .paragraph) {part : Part}
    (places : d.HasPlaces part.span.range) (unlisted : part.context.inList = false) :
    ∃ t, d.expand selectionType part = .ok t ∧ d.DelimitsRows t.range t.context := by
  have available : selectionType ≠ .character := by
    rintro rfl
    rcases whole with equal | equal <;> cases equal
  obtain ⟨range, context, grows, expanded⟩ := exists_grows places.rows available
  exact ⟨_, expanded, (grows.delimitsRows places.rows unlisted whole).toward _⟩

/-- The rows `x`, a blank one, an indented `b`, an empty one and `c`. -/
def spacedParagraph : Document :=
  ⟨⟨1⟩, "plaintext", ['x', '\n', ' ', '\r', '\n', '\t', 'b', '\r', '\n', '\n', 'c']⟩

/-- The paragraph `b` is delimited by the rows around it and by its indentation. -/
theorem spacedParagraph_delimitsRows :
    ∃ t, spacedParagraph.expand .paragraph { span := ⟨⟨1⟩, .point ⟨2, 2⟩⟩ } = .ok t ∧
      spacedParagraph.DelimitsRows t.range t.context ∧
      t.context.leading.bind spacedParagraph.textOf? = some ['\n', ' ', '\r', '\n', '\t'] ∧
      t.context.trailing.bind spacedParagraph.textOf? = some ['\r', '\n', '\n'] := by
  let part : Part := { span := ⟨⟨1⟩, .point ⟨2, 2⟩⟩ }
  have whole : SelectionType.paragraph = .line ∨ SelectionType.paragraph = .paragraph := Or.inr rfl
  have places : spacedParagraph.HasPlaces part.span.range := ⟨rfl, rfl⟩
  obtain ⟨t, expanded, delimits⟩ := expand_delimits_rows spacedParagraph whole places rfl
  refine ⟨t, expanded, delimits, ?_⟩
  cases expanded
  exact ⟨by decide +kernel, by decide +kernel⟩

end Document

end TargetSpans
