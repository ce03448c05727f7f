import Mathlib.Data.List.Basic
import Mathlib.Data.List.TakeWhile
import TargetSpans.Proofs.DocumentIndex

/-!
# The lines of a text

The lines of a text take it apart: one after the other, their contents and their breaks are the
text again.  Which break a line ends in can be read off its last two characters, since contents hold
no breaks, and no line starts between a carriage return and its line feed.  All of this is about any
list of characters, so it holds as well of a stretch that was cut out of a text, even in the middle
of a break.
-/

namespace TargetSpans

namespace Text

theorem ofChar?_eq_none_of_consContent {c : Char} {ls : List Line}
    (plain : LineBreak.ofChar? c = none)
    (below : ∀ l ∈ ls, ∀ x ∈ l.content, LineBreak.ofChar? x = none) :
    ∀ l ∈ consContent c ls, ∀ x ∈ l.content, LineBreak.ofChar? x = none := by
  cases ls with
  | nil => simpa [consContent] using plain
  | cons first rest =>
      intro l member x content
      rcases List.mem_cons.mp member with rfl | later
      · rcases List.mem_cons.mp content with rfl | inside
        · exact plain
        · exact below first List.mem_cons_self x inside
      · exact below l (List.mem_cons_of_mem first later) x content

theorem ofChar?_eq_none_of_mem_content (t : Text) :
    ∀ l ∈ t.lines, ∀ c ∈ l.content, LineBreak.ofChar? c = none := by
  fun_induction lines t with
  | case1 => simp
  | case2 rest ih => simpa using ih
  | case3 c rest single b found ih => simpa using ih
  | case4 c rest single plain ih => exact ofChar?_eq_none_of_consContent plain ih

/-- Only a carriage return in front of a line feed joins with it. -/
theorem finalBreak?_append_singleton {t : Text} {c : Char}
    (single : ∀ more, t.reverse = '\r' :: more → c ≠ '\n') :
    finalBreak? (t ++ [c]) = LineBreak.ofChar? c := by
  have reversed : (t ++ [c]).reverse = c :: t.reverse := by simp
  rw [finalBreak?, reversed]
  split
  case h_1 _ more equal =>
    obtain ⟨feed, return_⟩ := List.cons.inj equal
    exact absurd feed (single more return_)
  case h_2 _ first more _ equal =>
    obtain ⟨rfl, _⟩ := List.cons.inj equal
    rfl
  case h_3 _ equal => cases equal

end Text

/-- The break that a line ends in is the one it was cut at.  Content that ended in a carriage
return would be taken for a part of it. -/
theorem Line.finalBreak?_chars {l : Line}
    (plain : ∀ c ∈ l.content, LineBreak.ofChar? c = none) :
    Text.finalBreak? l.chars = l.ending := by
  obtain ⟨content, ending⟩ := l
  have noReturn : ∀ more, content.reverse ≠ '\r' :: more := by
    intro more equal
    have member : '\r' ∈ content := by
      rw [← List.mem_reverse, equal]
      exact List.mem_cons_self
    exact absurd (plain _ member) (by decide)
  cases ending with
  | none =>
      rcases List.eq_nil_or_concat content with rfl | ⟨init, c, rfl⟩
      · rfl
      · have last := plain c (by simp)
        have notFeed : c ≠ '\n' := by
          rintro rfl
          exact absurd last (by decide)
        simpa [Line.chars, Line.endingChars, last] using
          Text.finalBreak?_append_singleton fun _ _ => notFeed
  | some b =>
      cases b with
      | crlf => simp [Line.chars, Line.endingChars, LineBreak.chars, Text.finalBreak?]
      | lineFeed | verticalTab | formFeed | carriageReturn | nextLine | lineSeparator
      | paragraphSeparator =>
          exact Text.finalBreak?_append_singleton fun more equal => absurd equal (noReturn more)

/-! ## Where a line stands -/

theorem Line.Separated.ending_isSome_iff {ls : List Line} (separated : Line.Separated ls)
    {row : Nat} {l : Line} (found : ls[row]? = some l) : l.ending.isSome ↔ row + 1 < ls.length := by
  induction ls generalizing row with
  | nil => simp at found
  | cons first rest ih =>
      cases rest with
      | nil =>
          cases row with
          | zero =>
              have same : first = l := by simpa using found
              have unbroken : first.ending = none := separated
              simp [← same, unbroken]
          | succ row => simp at found
      | cons next rest =>
          cases row with
          | zero =>
              have same : first = l := by simpa using found
              simpa [← same] using separated.1
          | succ row =>
              have below : (next :: rest)[row]? = some l := by simpa using found
              rw [ih separated.2 below]
              simp

namespace Text

variable {t : Text} {row : Nat} {l : Line}

/-- A line stands in the text after all rows above it. -/
theorem exists_append_of_line (found : t.lines[row]? = some l) :
    ∃ before after, t = before ++ l.chars ++ after ∧ before.length = t.rowStart row := by
  obtain ⟨inside, equal⟩ := List.getElem?_eq_some_iff.mp found
  refine ⟨(t.lines.take row).flatMap Line.chars, (t.lines.drop (row + 1)).flatMap Line.chars,
    ?_, Line.length_flatMap_chars _⟩
  have split : t.lines = t.lines.take row ++ l :: t.lines.drop (row + 1) := by
    rw [← equal, ← List.drop_eq_getElem_cons inside, List.take_append_drop]
  calc
    t = t.lines.flatMap Line.chars := (flatMap_chars_lines t).symm
    _ = (t.lines.take row ++ l :: t.lines.drop (row + 1)).flatMap Line.chars := by rw [← split]
    _ = _ := by rw [List.flatMap_append, List.flatMap_cons, List.append_assoc]

theorem rowStart_succ (found : t.lines[row]? = some l) :
    t.rowStart (row + 1) = t.rowStart row + l.size := by
  have next : t.lines.take (row + 1) = t.lines.take row ++ [l] := by
    rw [List.take_add_one, found]
    rfl
  rw [rowStart, next, Line.totalSize_append, Line.totalSize_cons, Line.totalSize_nil, Nat.add_zero]
  rfl

theorem rowStart_add_line (found : t.lines[row]? = some l) :
    t.rowStart row + l.length + l.endingChars.length = t.rowStart (row + 1) := by
  rw [rowStart_succ found, l.size_eq, Nat.add_assoc]

theorem rowEnd?_of_line (found : t.lines[row]? = some l) :
    t.rowEnd? row = some (t.rowStart row + l.length) := by
  rw [rowEnd?, found, Option.map_some]

theorem drop_take_of_append {before middle after : Text} (split : t = before ++ middle ++ after) :
    (t.take (before.length + middle.length)).drop before.length = middle := by
  rw [split, ← List.length_append, List.take_left, List.drop_left]

/-- A line is the stretch of the text from the start of its row to the start of the next one. -/
theorem drop_take_rowStart (found : t.lines[row]? = some l) :
    (t.take (t.rowStart (row + 1))).drop (t.rowStart row) = l.chars := by
  obtain ⟨before, after, split, start⟩ := exists_append_of_line found
  rw [rowStart_succ found, ← start]
  exact drop_take_of_append split

theorem drop_take_content (found : t.lines[row]? = some l) :
    (t.take (t.rowStart row + l.length)).drop (t.rowStart row) = l.content := by
  obtain ⟨before, after, split, start⟩ := exists_append_of_line found
  have cut : t = before ++ l.content ++ (l.endingChars ++ after) := by
    rw [split, Line.chars]
    simp only [List.append_assoc]
  rw [← start]
  exact drop_take_of_append cut

theorem rowStart_eq_length (below : t.lines.length ≤ row) : t.rowStart row = t.length := by
  rw [rowStart, List.take_of_length_le below, totalSize_lines]

/-- No row starts between a carriage return and its line feed. -/
theorem not_splitsBreak_rowStart (t : Text) (row : Nat) : ¬ t.SplitsBreak (t.rowStart row) := by
  intro splits
  rcases Nat.lt_or_ge row t.lines.length with inside | below
  · have found : t.lines[row]? = some t.lines[row] := List.getElem?_eq_getElem inside
    have start : t.rowStart row = Line.indexIn t.lines row 0 := by
      rw [Line.indexIn_of_getElem? found, Nat.zero_min]
      rfl
    obtain ⟨line, _, past⟩ := (pastContent_iff_splitsBreak t _).mpr splits
    rw [start, Line.positionIn_indexIn (separated_lines t) found (Nat.zero_le _)] at past
    exact Nat.not_lt_zero _ past
  · have inside := splits.lt_length
    rw [rowStart_eq_length below] at inside
    exact Nat.lt_irrefl _ inside

end Text

/-! ## Blanks at the front of a line -/

namespace Line

theorem isGreatest_indent (l : Line) :
    IsGreatest {n | n ≤ l.length ∧ ∀ c ∈ l.content.take n, isBlank c = true} l.indent := by
  have blanks : l.content.take l.indent = l.content.takeWhile isBlank :=
    (List.prefix_iff_eq_take.mp (List.takeWhile_prefix _)).symm
  refine ⟨⟨(List.takeWhile_sublist _).length_le, ?_⟩, ?_⟩
  · intro c member
    rw [blanks] at member
    exact List.mem_takeWhile_imp member
  · rintro n ⟨short, blank⟩
    have longer : l.content.takeWhile isBlank =
        l.content.take n ++ (l.content.drop n).takeWhile isBlank := by
      rw [← List.takeWhile_append_of_pos blank, List.take_append_drop]
    have count : (l.content.take n).length = n := List.length_take_of_le short
    rw [indent, longer, List.length_append, count]
    exact Nat.le_add_right _ _

theorem indent_eq_length_iff (l : Line) : l.indent = l.length ↔ l.allBlank = true := by
  rw [allBlank, List.all_eq_true, ← List.takeWhile_eq_self_iff]
  constructor
  · exact fun full => (List.takeWhile_prefix _).eq_of_length full
  · exact fun whole => congrArg List.length whole

end Line

namespace Text

/-- A text has a line in some row, and all that is read off the text about the row is right. -/
structure HasLine (t : Text) (row : Nat) (l : Line) : Prop where
  chars_eq : l.chars = (t.take (t.rowStart (row + 1))).drop (t.rowStart row)
  finalBreak?_eq : finalBreak? l.chars = l.ending
  rowStart_add : t.rowStart row + l.length + l.endingChars.length = t.rowStart (row + 1)
  rowEnd?_eq : t.rowEnd? row = some (t.rowStart (row + 1) - l.endingChars.length)
  content_eq : l.content =
    (t.take (t.rowStart (row + 1) - l.endingChars.length)).drop (t.rowStart row)
  length_eq : l.length = t.rowStart (row + 1) - l.endingChars.length - t.rowStart row
  plain : ∀ c ∈ l.content, LineBreak.ofChar? c = none
  ending_isSome_iff : l.ending.isSome ↔ row + 1 < t.lines.length
  isGreatest_indent :
    IsGreatest {n | n ≤ l.length ∧ ∀ c ∈ l.content.take n, isBlank c = true} l.indent
  indent_eq_length_iff : l.indent = l.length ↔ l.allBlank = true

theorem hasLine_of_getElem? {t : Text} {row : Nat} {l : Line} (found : t.lines[row]? = some l) :
    t.HasLine row l := by
  have plain := ofChar?_eq_none_of_mem_content t l (List.mem_of_getElem? found)
  have sum := rowStart_add_line found
  have stop : t.rowStart (row + 1) - l.endingChars.length = t.rowStart row + l.length := by omega
  exact {
    chars_eq := (drop_take_rowStart found).symm
    finalBreak?_eq := Line.finalBreak?_chars plain
    rowStart_add := sum
    rowEnd?_eq := by rw [stop, rowEnd?_of_line found]
    content_eq := by rw [stop, drop_take_content found]
    length_eq := by omega
    plain
    ending_isSome_iff := (separated_lines t).ending_isSome_iff found
    isGreatest_indent := l.isGreatest_indent
    indent_eq_length_iff := l.indent_eq_length_iff }

/-- The contents of the lines of a text and the breaks that are read off their ends are the text
again.  No row starts within a break.  Contents hold no breaks; all lines but the last one have a
break at the end; ends and lengths of rows are exact differences; and the indent of a line is its
longest front of blanks, the whole line if and only if it is blank. -/
theorem lines_partition (t : Text) :
    (t.lines.flatMap fun l =>
        l.content ++ ((finalBreak? l.chars).map LineBreak.chars).getD []) = t ∧
      (∀ row, ¬ t.SplitsBreak (t.rowStart row)) ∧
      ∀ row l, t.lines[row]? = some l → t.HasLine row l := by
  refine ⟨?_, not_splitsBreak_rowStart t, fun row l found => hasLine_of_getElem? found⟩
  calc
    (t.lines.flatMap fun l =>
        l.content ++ ((finalBreak? l.chars).map LineBreak.chars).getD []) =
        t.lines.flatMap Line.chars := by
      apply List.flatMap_congr
      intro l member
      rw [Line.finalBreak?_chars (ofChar?_eq_none_of_mem_content t l member)]
      rfl
    _ = t := flatMap_chars_lines t

/-- A stretch of a text from the line feed of one break to the carriage return of another one. -/
def cutAtBreaks : Text :=
  List.drop 2 (List.take 7 ['a', '\r', '\n', ' ', 'b', '\r', '\r', '\n', 'c'])

theorem cutAtBreaks_hasLine :
    cutAtBreaks.lines[2]? = some ⟨[], some .carriageReturn⟩ ∧
      cutAtBreaks.HasLine 1 ⟨[' ', 'b'], some .carriageReturn⟩ :=
  ⟨rfl, (lines_partition cutAtBreaks).2.2 1 _ rfl⟩

end Text

end TargetSpans
