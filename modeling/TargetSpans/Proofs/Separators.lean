import TargetSpans.Proofs.LinePartition
import TargetSpans.Proofs.Places

/-!
# Separators beside a range

The delimiters of a token are guessed from its rows alone: the longest runs of separators that touch
its two ends, as long as something else stands beyond them.  The two ends are scanned in opposite
directions, yet two neighbours on a row see the run between them alike, since both scans find all
of it.
-/

namespace TargetSpans

namespace Text

/-- A text starts with a run of list separators, and something else stands right behind the run. -/
def StartsWithRun (t run : Text) : Prop :=
  run ≠ [] ∧ (∀ c ∈ run, isListSeparator c = true) ∧
    ∃ c rest, isListSeparator c = false ∧ t = run ++ c :: rest

/-- A text ends in a run of list separators, and something else stands right before the run. -/
def EndsInRun (t run : Text) : Prop :=
  run ≠ [] ∧ (∀ c ∈ run, isListSeparator c = true) ∧
    ∃ front c, isListSeparator c = false ∧ t = front ++ c :: run

variable {t run : Text}

theorem startsWithRun_reverse_iff : StartsWithRun t.reverse run.reverse ↔ EndsInRun t run := by
  have turn : ∀ c rest, t.reverse = run.reverse ++ c :: rest ↔ t = rest.reverse ++ c :: run := by
    intro c rest
    rw [List.reverse_eq_iff]
    simp
  simp only [StartsWithRun, EndsInRun, turn, ne_eq, List.reverse_eq_nil_iff, List.mem_reverse]
  constructor
  · rintro ⟨nonempty, separators, c, rest, other, split⟩
    exact ⟨nonempty, separators, rest.reverse, c, other, split⟩
  · rintro ⟨nonempty, separators, front, c, other, split⟩
    exact ⟨nonempty, separators, c, front.reverse, other, by rwa [List.reverse_reverse]⟩

/-- The run that a text starts with is all that a scan for separators takes from it. -/
theorem StartsWithRun.takeWhile_eq (starts : StartsWithRun t run) :
    t.takeWhile isListSeparator = run := by
  obtain ⟨_, separators, c, rest, other, rfl⟩ := starts
  rw [List.takeWhile_append_of_pos separators, List.takeWhile_cons_of_neg (by simp [other]),
    List.append_nil]

theorem startsWithRun_takeWhile (nonempty : t.takeWhile isListSeparator ≠ [])
    (short : (t.takeWhile isListSeparator).length < t.length) :
    StartsWithRun t (t.takeWhile isListSeparator) := by
  have split := List.takeWhile_append_dropWhile (p := isListSeparator) (l := t)
  refine ⟨nonempty, fun c member => List.mem_takeWhile_imp member, ?_⟩
  cases beyond : t.dropWhile isListSeparator with
  | nil =>
      rw [beyond, List.append_nil] at split
      rw [split] at short
      exact absurd short (Nat.lt_irrefl _)
  | cons c rest =>
      have other := List.head?_dropWhile_not isListSeparator t
      rw [beyond] at other split
      exact ⟨c, rest, by simpa using other, split.symm⟩

theorem separatorRun?_eq_some_iff {length : Nat} :
    separatorRun? t = some length ↔ ∃ run, StartsWithRun t run ∧ run.length = length := by
  constructor
  · intro found
    obtain ⟨rfl, positive, short⟩ := of_separatorRun?_eq_some found
    exact ⟨_, startsWithRun_takeWhile (List.length_pos_iff.mp positive) short, rfl⟩
  · rintro ⟨run, starts, rfl⟩
    have whole := starts.takeWhile_eq
    obtain ⟨nonempty, _, c, rest, _, rfl⟩ := starts
    have positive := List.length_pos_iff.mpr nonempty
    rw [separatorRun?, whole, if_neg]
    simp only [List.length_append, List.length_cons]
    omega

theorem separatorRun?_reverse_eq_some_iff {length : Nat} :
    separatorRun? t.reverse = some length ↔ ∃ run, EndsInRun t run ∧ run.length = length := by
  rw [separatorRun?_eq_some_iff]
  constructor
  · rintro ⟨run, starts, rfl⟩
    refine ⟨run.reverse, startsWithRun_reverse_iff.mp ?_, List.length_reverse⟩
    rwa [List.reverse_reverse]
  · rintro ⟨run, ends, rfl⟩
    exact ⟨run.reverse, startsWithRun_reverse_iff.mpr ends, List.length_reverse⟩

end Text

namespace Document

variable {d : Document} {r : Range} {l : Line}

/-- The text between two columns of a row. -/
theorem textOf?_of_line {row first last : Nat} (found : d.line? row = some l) (le : first ≤ last)
    (inside : last ≤ l.length) :
    d.textOf? ⟨⟨row, first⟩, ⟨row, last⟩⟩ = some ((l.content.take last).drop first) := by
  have index : ∀ col, col ≤ l.length → d.index ⟨row, col⟩ = d.text.rowStart row + col := by
    intro col short
    rw [index_eq_of_line? found, Nat.min_eq_left short]
  have bounds : (⟨row, first⟩ : Position) ≤ ⟨row, last⟩ := Position.mk_le_mk le
  have content := Text.drop_take_content found
  simp only [textOf?, Range.start_mk_of_le bounds, Range.stop_mk_of_le bounds,
    index first (le.trans inside), index last inside]
  rw [if_pos (by omega), ← content, List.take_drop, List.take_take, List.drop_drop]
  congr 3
  omega

/-- What a context says of a range if nothing is known but the text before it on its first row and
the text after it on its last row: the runs of separators in between, the literal of a list if there
is one. -/
structure Separates (r : Range) (before after : Text) (c : DelimiterContext) : Prop where
  leading_iff : ∀ delimiter, c.leading = some delimiter ↔
    ∃ run, before.EndsInRun run ∧
      delimiter = ⟨⟨r.start.row, r.start.col - run.length⟩, r.start⟩
  trailing_iff : ∀ delimiter, c.trailing = some delimiter ↔
    ∃ run, after.StartsWithRun run ∧ delimiter = ⟨r.stop, r.stop.right run.length⟩
  alone : c.leading = none → c.trailing = none → c = {}
  listed_trailing : ∀ run, after.StartsWithRun run → c = .ofDelimiters run c.leading c.trailing
  listed_leading : c.trailing = none →
    ∀ run, before.EndsInRun run → c = .ofDelimiters run c.leading none

theorem separatorsBefore?_eq_some_iff {p : Position} (found : d.line? p.row = some l)
    {leading : Option Range} (scanned : d.separatorsBefore? p = some leading) (delimiter : Range) :
    leading = some delimiter ↔ ∃ run, Text.EndsInRun (l.content.take p.col) run ∧
      delimiter = ⟨⟨p.row, p.col - run.length⟩, p⟩ := by
  obtain ⟨_, sameRow, equal⟩ := exists_separatorsBefore? (row_lt_of_line? found)
  cases found.symm.trans sameRow
  cases scanned.symm.trans equal
  simp only [Option.map_eq_some_iff, Text.separatorRun?_reverse_eq_some_iff]
  constructor
  · rintro ⟨_, ⟨run, ends, rfl⟩, rfl⟩
    exact ⟨run, ends, rfl⟩
  · rintro ⟨run, ends, rfl⟩
    exact ⟨_, ⟨run, ends, rfl⟩, rfl⟩

theorem separatorsAfter?_eq_some_iff {p : Position} (found : d.line? p.row = some l)
    {trailing : Option Range} (scanned : d.separatorsAfter? p = some trailing)
    (delimiter : Range) :
    trailing = some delimiter ↔ ∃ run, Text.StartsWithRun (l.content.drop p.col) run ∧
      delimiter = ⟨p, p.right run.length⟩ := by
  obtain ⟨_, sameRow, equal⟩ := exists_separatorsAfter? (row_lt_of_line? found)
  cases found.symm.trans sameRow
  cases scanned.symm.trans equal
  simp only [Option.map_eq_some_iff, Text.separatorRun?_eq_some_iff]
  constructor
  · rintro ⟨_, ⟨run, starts, rfl⟩, rfl⟩
    exact ⟨run, starts, rfl⟩
  · rintro ⟨run, starts, rfl⟩
    exact ⟨_, ⟨run, starts, rfl⟩, rfl⟩

theorem textOf?_runBefore {p : Position} {run : Text} (found : d.line? p.row = some l)
    (inside : p.col ≤ l.length) (ends : Text.EndsInRun (l.content.take p.col) run) :
    d.textOf? ⟨⟨p.row, p.col - run.length⟩, p⟩ = some run := by
  obtain ⟨_, _, front, c, _, split⟩ := ends
  have length : p.col = (front ++ [c]).length + run.length := by
    have counted := congrArg List.length split
    rw [List.length_take_of_le inside] at counted
    simp only [List.length_append, List.length_cons, List.length_nil] at counted ⊢
    omega
  have text := textOf?_of_line found (Nat.sub_le p.col run.length) inside
  have start : p.col - run.length = (front ++ [c]).length := by omega
  have cut : (front ++ c :: run).drop (front ++ [c]).length = run := by
    rw [List.append_cons front c run, List.drop_left]
  rwa [split, start, cut, ← start] at text

theorem textOf?_runAfter {p : Position} {run : Text} (found : d.line? p.row = some l)
    (starts : Text.StartsWithRun (l.content.drop p.col) run) :
    d.textOf? ⟨p, p.right run.length⟩ = some run := by
  obtain ⟨_, _, c, rest, _, split⟩ := starts
  have inside : p.col + run.length ≤ l.length := by
    have counted := congrArg List.length split
    simp only [List.length_drop, List.length_append, List.length_cons] at counted
    rw [Line.length]
    omega
  have text := textOf?_of_line found (Nat.le_add_right p.col run.length) inside
  have cut : (l.content.take (p.col + run.length)).drop p.col = run := by
    rw [List.drop_take, split, Nat.add_sub_cancel_left, List.take_left]
  rwa [cut] at text

theorem exists_separates (places : d.HasPlaces r) :
    ∃ top bottom c, d.line? r.start.row = some top ∧ d.line? r.stop.row = some bottom ∧
      d.inferDelimiters? r = some c ∧
      Separates r (top.content.take r.start.col) (bottom.content.drop r.stop.col) c := by
  obtain ⟨top, foundTop, startInside⟩ := contains_iff.mp places.start
  obtain ⟨bottom, foundBottom, _⟩ := contains_iff.mp places.stop
  obtain ⟨leading, trailing, before, after, guessed⟩ := exists_inferDelimiters? places.rows
  have leading_iff := separatorsBefore?_eq_some_iff foundTop before
  have trailing_iff := separatorsAfter?_eq_some_iff foundBottom after
  refine ⟨top, bottom, ?_⟩
  -- The nearest run is the trailing one if there is one, and only otherwise the leading one.
  rcases guessed with ⟨neither, inferred⟩ | ⟨nearest, literal, isNearest, text, inferred⟩
  · obtain ⟨rfl, rfl⟩ : trailing = none ∧ leading = none := by simpa using neither
    refine ⟨{}, foundTop, foundBottom, inferred, leading_iff, trailing_iff, fun _ _ => rfl, ?_, ?_⟩
    · exact fun run starts => absurd ((trailing_iff _).mpr ⟨run, starts, rfl⟩) (by simp)
    · exact fun _ run ends => absurd ((leading_iff _).mpr ⟨run, ends, rfl⟩) (by simp)
  · refine ⟨_, foundTop, foundBottom, inferred, leading_iff, trailing_iff, ?_, ?_, ?_⟩
    · rintro (rfl : leading = none) (rfl : trailing = none)
      cases isNearest
    · intro run starts
      have isTrailing := (trailing_iff _).mpr ⟨run, starts, rfl⟩
      rw [isTrailing] at isNearest
      cases isNearest
      cases text.symm.trans (textOf?_runAfter foundBottom starts)
      rfl
    · rintro (rfl : trailing = none) run ends
      have isLeading := (leading_iff _).mpr ⟨run, ends, rfl⟩
      rw [isLeading] at isNearest
      cases isNearest
      cases text.symm.trans (textOf?_runBefore foundTop startInside ends)
      rfl

/-- The first range ends and the second one starts on a row of the given content, with a run of
separators between them, and each is other than a separator next to the run. -/
structure Neighbours (content : Text) (a b : Range) : Prop where
  row : a.stop.row = b.start.row
  apart : a.stop.col < b.start.col
  left : ∃ x, (content.take a.stop.col).getLast? = some x ∧ isListSeparator x = false
  between : ∀ c ∈ (content.take b.start.col).drop a.stop.col, isListSeparator c = true
  right : ∃ y, content[b.start.col]? = some y ∧ isListSeparator y = false

namespace Neighbours

variable {content : Text} {a b : Range}

theorem length_between (neighbours : Neighbours content a b) :
    ((content.take b.start.col).drop a.stop.col).length = b.start.col - a.stop.col := by
  obtain ⟨y, here, _⟩ := neighbours.right
  obtain ⟨inside, _⟩ := List.getElem?_eq_some_iff.mp here
  rw [List.length_drop, List.length_take_of_le (Nat.le_of_lt inside)]

theorem between_ne_nil (neighbours : Neighbours content a b) :
    (content.take b.start.col).drop a.stop.col ≠ [] := by
  have apart := neighbours.apart
  rw [← List.length_pos_iff, neighbours.length_between]
  omega

theorem startsWithRun (neighbours : Neighbours content a b) :
    Text.StartsWithRun (content.drop a.stop.col)
      ((content.take b.start.col).drop a.stop.col) := by
  obtain ⟨y, here, other⟩ := neighbours.right
  obtain ⟨inside, rfl⟩ := List.getElem?_eq_some_iff.mp here
  refine ⟨neighbours.between_ne_nil, neighbours.between, _, content.drop (b.start.col + 1), other,
    ?_⟩
  have apart := neighbours.apart
  have short : a.stop.col ≤ (content.take b.start.col).length := by
    rw [List.length_take_of_le (Nat.le_of_lt inside)]
    omega
  rw [← List.drop_eq_getElem_cons inside, ← List.drop_append_of_le_length short,
    List.take_append_drop]

theorem endsInRun (neighbours : Neighbours content a b) :
    Text.EndsInRun (content.take b.start.col)
      ((content.take b.start.col).drop a.stop.col) := by
  obtain ⟨x, last, other⟩ := neighbours.left
  obtain ⟨front, split⟩ := List.getLast?_eq_some_iff.mp last
  refine ⟨neighbours.between_ne_nil, neighbours.between, front, x, other, ?_⟩
  have shorter : (content.take b.start.col).take a.stop.col = front ++ [x] := by
    rw [List.take_take, Nat.min_eq_left (Nat.le_of_lt neighbours.apart), split]
  rw [List.append_cons front x, ← shorter, List.take_append_drop]

end Neighbours

/-- The delimiters guessed around a range are the longest runs of separators that touch it on its
rows and have something else beyond them.  Neighbours on a row get the run between them as the
trailing delimiter of the first and as the leading one of the second. -/
theorem inferDelimiters?_separates (d : Document) :
    (∀ r, d.HasPlaces r → ∃ top bottom c, d.line? r.start.row = some top ∧
      d.line? r.stop.row = some bottom ∧ d.inferDelimiters? r = some c ∧
      Separates r (top.content.take r.start.col) (bottom.content.drop r.stop.col) c) ∧
    ∀ a b l, d.HasPlaces a → d.HasPlaces b → d.line? a.stop.row = some l →
      Neighbours l.content a b → ∃ first second, d.inferDelimiters? a = some first ∧
        d.inferDelimiters? b = some second ∧ first.trailing = some ⟨a.stop, b.start⟩ ∧
        second.leading = some ⟨a.stop, b.start⟩ := by
  refine ⟨fun r places => exists_separates places, ?_⟩
  intro a b l left right line neighbours
  obtain ⟨_, bottom, first, _, foundBottom, inferredFirst, firstSeparates⟩ := exists_separates left
  obtain ⟨top, _, second, foundTop, _, inferredSecond, secondSeparates⟩ := exists_separates right
  cases line.symm.trans foundBottom
  rw [← neighbours.row] at foundTop
  cases line.symm.trans foundTop
  have apart := neighbours.apart
  refine ⟨first, second, inferredFirst, inferredSecond, ?_, ?_⟩
  · refine (firstSeparates.trailing_iff _).mpr ⟨_, neighbours.startsWithRun, ?_⟩
    have stop : b.start = a.stop.right (b.start.col - a.stop.col) := by
      rw [Position.right, neighbours.row, Nat.add_sub_cancel' (Nat.le_of_lt apart)]
    rw [neighbours.length_between, ← stop]
  · refine (secondSeparates.leading_iff _).mpr ⟨_, neighbours.endsInRun, ?_⟩
    have start : a.stop = ⟨b.start.row, b.start.col - (b.start.col - a.stop.col)⟩ := by
      rw [Nat.sub_sub_self (Nat.le_of_lt apart), ← neighbours.row]
    rw [neighbours.length_between, ← start]

/-- The text `x ; y` over `z`. -/
def assignments : Document := ⟨⟨1⟩, "plaintext", ['x', ' ', ';', ' ', 'y', '\r', '\n', 'z']⟩

/-- The `x` in that text, backward, and everything from the `y` on are neighbours. -/
theorem assignments_share_separator :
    ∃ first second, assignments.inferDelimiters? ⟨⟨0, 1⟩, ⟨0, 0⟩⟩ = some first ∧
      assignments.inferDelimiters? ⟨⟨0, 4⟩, ⟨1, 1⟩⟩ = some second ∧
      first.trailing = some ⟨⟨0, 1⟩, ⟨0, 4⟩⟩ ∧ second.leading = some ⟨⟨0, 1⟩, ⟨0, 4⟩⟩ := by
  have blank : isBlank ' ' = true := by decide
  have separators : ∀ c ∈ [' ', ';', ' '], isListSeparator c = true := by
    simp [isListSeparator, blank]
  exact (inferDelimiters?_separates assignments).2 ⟨⟨0, 1⟩, ⟨0, 0⟩⟩ ⟨⟨0, 4⟩, ⟨1, 1⟩⟩
    ⟨['x', ' ', ';', ' ', 'y'], some .crlf⟩ ⟨rfl, rfl⟩ ⟨rfl, rfl⟩ rfl
    ⟨rfl, by decide, ⟨'x', rfl, rfl⟩, separators, ⟨'y', rfl, rfl⟩⟩

end Document

end TargetSpans
