import TargetSpans.Proofs.Places
import TargetSpans.Proofs.WordBoundaries

/-!
# Runs of pieces

A run of the words or characters of a range is named by two indices, from the front or from the end.
Its offsets are counted in the text of the range and have to become positions of the document again.
Nothing is lost on the way as long as no end of a piece splits a break, and no end of a word does.
-/

namespace TargetSpans

open Answer

namespace Piece

/-- Whether one of `count` pieces has an index, from the front or, if it is negative, from the
end. -/
def HasIndex (count : Nat) (index : Int) : Prop := -count ≤ index ∧ index < count

/-- The piece that an index names, counted from the front or from the end. -/
def Names (index : Int) {count : Nat} (i : Fin count) : Prop := index = i ∨ index = i - count

theorem indexAmong_eq_ok_iff {index : Int} {count : Nat} {i : Fin count} :
    indexAmong index count = .ok i ↔ Names index i := by
  have below := i.isLt
  simp only [indexAmong, Names]
  split_ifs
  all_goals simp only [Fin.ext_iff, Except.ok.injEq, refuse, reduceCtorEq, false_iff]
  all_goals omega

theorem exists_names_iff {index : Int} {count : Nat} :
    (∃ i : Fin count, Names index i) ↔ HasIndex count index := by
  constructor
  · rintro ⟨i, names⟩
    have below := i.isLt
    simp only [Names, HasIndex] at *
    omega
  · rintro ⟨low, high⟩
    rcases lt_or_ge index 0 with negative | positive
    · exact ⟨⟨(index + count).toNat, by omega⟩, Or.inr (by simp only; omega)⟩
    · exact ⟨⟨index.toNat, by omega⟩, Or.inl (by simp only; omega)⟩

theorem indexAmong_eq_refuse {index : Int} {count : Nat} (outside : ¬ HasIndex count index) :
    indexAmong index count = refuse (.indexOutOfRange index count) := by
  simp only [HasIndex] at outside
  simp only [indexAmong]
  rw [dif_neg]
  split <;> omega

/-- Counted from the front or from the end, it is the same piece. -/
theorem indexAmong_sub_count {k count : Nat} (inside : k < count) :
    indexAmong (k - count) count = indexAmong k count := by
  have front : indexAmong k count = .ok ⟨k, inside⟩ := indexAmong_eq_ok_iff.mpr (Or.inl rfl)
  have back : indexAmong (k - count) count = .ok ⟨k, inside⟩ :=
    indexAmong_eq_ok_iff.mpr (Or.inr rfl)
  rw [front, back]

/-- Pieces of a text that come one after the other, none of them empty. -/
structure InOrder (t : Text) (pieces : List Piece) : Prop where
  bounds : ∀ p ∈ pieces, p.start < p.stop ∧ p.stop ≤ t.length
  ordered : pieces.Pairwise fun p q => p.stop ≤ q.start

theorem inOrder_pieces (kind : PieceKind) (t : Text) : InOrder t (kind.pieces t) := by
  cases kind with
  | word => exact ⟨(wordCut_words t).bounds, (wordCut_words t).ordered⟩
  | character =>
      refine ⟨?_, ?_⟩
      · intro p member
        obtain ⟨index, inside, rfl⟩ := List.mem_map.mp member
        have below := List.mem_range.mp inside
        exact ⟨Nat.lt_succ_self index, below⟩
      · exact List.pairwise_map.mpr List.pairwise_lt_range

namespace InOrder

variable {t : Text} {pieces : List Piece}

theorem stop_le_start (inOrder : InOrder t pieces) {i j : Fin pieces.length} (lt : i < j) :
    pieces[i].stop ≤ pieces[j].start :=
  List.pairwise_iff_getElem.mp inOrder.ordered i j i.isLt j.isLt lt

theorem start_le_start (inOrder : InOrder t pieces) {i j : Fin pieces.length} (le : i ≤ j) :
    pieces[i].start ≤ pieces[j].start := by
  rcases lt_or_eq_of_le le with lt | rfl
  · have first := (inOrder.bounds pieces[i] (List.getElem_mem _)).1
    have apart := inOrder.stop_le_start lt
    omega
  · exact Nat.le_refl _

theorem stop_le_stop (inOrder : InOrder t pieces) {i j : Fin pieces.length} (le : i ≤ j) :
    pieces[i].stop ≤ pieces[j].stop := by
  rcases lt_or_eq_of_le le with lt | rfl
  · have last := (inOrder.bounds pieces[j] (List.getElem_mem _)).1
    have apart := inOrder.stop_le_start lt
    omega
  · exact Nat.le_refl _

theorem start_lt_stop (inOrder : InOrder t pieces) {i j : Fin pieces.length} (le : i ≤ j) :
    pieces[i].start < pieces[j].stop :=
  (inOrder.bounds pieces[i] (List.getElem_mem _)).1.trans_le (inOrder.stop_le_stop le)

end InOrder

/-- The stretch that covers two pieces, whichever of them comes first. -/
def hull (pieces : List Piece) (i j : Fin pieces.length) : Piece :=
  ⟨pieces[min i j].start, pieces[max i j].stop⟩

theorem runEnds_of_le {pieces : List Piece} {i j : Fin pieces.length} (le : i ≤ j) :
    runEnds pieces i j = ((hull pieces i j).start, (hull pieces i j).stop) := by
  simp only [runEnds, if_neg (not_lt_of_ge le), hull, min_eq_left le, max_eq_right le]

theorem runEnds_of_lt {pieces : List Piece} {i j : Fin pieces.length} (lt : j < i) :
    runEnds pieces i j = ((hull pieces i j).stop, (hull pieces i j).start) := by
  simp only [runEnds, if_pos lt, hull, min_eq_right lt.le, max_eq_left lt.le]

theorem InOrder.hull_proper {t : Text} {pieces : List Piece} (inOrder : InOrder t pieces)
    (i j : Fin pieces.length) :
    (hull pieces i j).start < (hull pieces i j).stop ∧ (hull pieces i j).stop ≤ t.length :=
  ⟨inOrder.start_lt_stop (min_le_max (a := i) (b := j)),
    (inOrder.bounds _ (List.getElem_mem _)).2⟩

/-- The indices of the characters of a text that belong to a word. -/
def spoken (t : Text) : Set Nat := {i | ∃ c, t[i]? = some c ∧ CharClass.ofChar c ≠ .separator}

/-- Pieces that hold just the characters of words run, from the first piece to the last one, from
the first such character to the last one. -/
theorem InOrder.hull_eq {t : Text} {pieces : List Piece} (inOrder : InOrder t pieces)
    (covers : ∀ k, (∃ p ∈ pieces, k ∈ p) ↔ k ∈ spoken t) {i j : Nat}
    (least : IsLeast (spoken t) i) (greatest : IsGreatest (spoken t) j)
    {first last : Fin pieces.length} (isFirst : ∀ k, first ≤ k) (isLast : ∀ k, k ≤ last) :
    hull pieces first last = ⟨i, j + 1⟩ := by
  have start : pieces[first].start = i := by
    -- The least index lies in some piece, and the first piece starts no later and within a word.
    obtain ⟨p, member, inside, _⟩ := (covers i).mpr least.1
    obtain ⟨k, below, rfl⟩ := List.getElem_of_mem member
    have before : pieces[first].start ≤ pieces[k].start :=
      inOrder.start_le_start (isFirst ⟨k, below⟩)
    have proper := (inOrder.bounds pieces[first] (List.getElem_mem _)).1
    have inWord : pieces[first].start ∈ spoken t :=
      (covers _).mp ⟨_, List.getElem_mem first.isLt, Nat.le_refl _, proper⟩
    exact Nat.le_antisymm (before.trans inside) (least.2 inWord)
  have stop : pieces[last].stop = j + 1 := by
    obtain ⟨q, member, _, inside⟩ := (covers j).mpr greatest.1
    obtain ⟨k, below, rfl⟩ := List.getElem_of_mem member
    have behind : pieces[k].stop ≤ pieces[last].stop :=
      inOrder.stop_le_stop (isLast ⟨k, below⟩)
    have proper := (inOrder.bounds pieces[last] (List.getElem_mem _)).1
    have inWord : pieces[last].stop - 1 ∈ spoken t :=
      (covers _).mp ⟨_, List.getElem_mem last.isLt, Nat.le_sub_one_of_lt proper,
        Nat.sub_one_lt (Nat.ne_zero_of_lt proper)⟩
    have atMost : pieces[last].stop - 1 ≤ j := greatest.2 inWord
    exact Nat.le_antisymm (Nat.le_add_of_sub_le atMost) (inside.trans_le behind)
  simp only [hull, min_eq_left (isFirst last), max_eq_right (isFirst last), start, stop]

/-- The indices 0 and -1 name the first and the last piece. -/
theorem exists_names_first_last {count : Nat} (positive : 0 < count) :
    ∃ first last : Fin count, Names 0 first ∧ Names (-1) last ∧ (∀ k, first ≤ k) ∧
      ∀ k, k ≤ last := by
  refine ⟨⟨0, positive⟩, ⟨count - 1, Nat.sub_one_lt positive.ne'⟩, Or.inl rfl, Or.inr ?_,
    fun k => Nat.zero_le k, fun k => Nat.le_sub_one_of_lt k.isLt⟩
  simp only
  omega

theorem exists_hull_words {t : Text} {i j : Nat} (least : IsLeast (spoken t) i)
    (greatest : IsGreatest (spoken t) j) :
    ∃ first last : Fin (PieceKind.word.pieces t).length, Names 0 first ∧ Names (-1) last ∧
      first ≤ last ∧ hull (PieceKind.word.pieces t) first last = ⟨i, j + 1⟩ := by
  have covers : ∀ k, (∃ p ∈ PieceKind.word.pieces t, k ∈ p) ↔ k ∈ spoken t :=
    (wordCut_words t).covers
  obtain ⟨_, member, _⟩ := (covers i).mpr least.1
  obtain ⟨first, last, zero, minusOne, isFirst, isLast⟩ :=
    exists_names_first_last (List.length_pos_of_mem member)
  exact ⟨first, last, zero, minusOne, isFirst last,
    (inOrder_pieces .word t).hull_eq covers least greatest isFirst isLast⟩

end Piece

namespace Document

variable {d : Document} {r : Range} {t : Text}

theorem textOf?_flip (d : Document) (r : Range) : d.textOf? r.flip = d.textOf? r :=
  textOf?_congr ⟨Range.start_flip r, Range.stop_flip r⟩

/-- The range between two offsets into the text of a range. -/
def stretch (d : Document) (r : Range) (first last : Nat) : Range :=
  ⟨d.position (d.index r.start + first), d.position (d.index r.start + last)⟩

theorem flip_stretch (d : Document) (r : Range) (first last : Nat) :
    (d.stretch r first last).flip = d.stretch r last first :=
  rfl

/-- Where the ends of a piece of the text of a range split no break, the piece is a part of the
range with just its characters. -/
structure Cuts (d : Document) (r : Range) (t : Text) (p : Piece) : Prop where
  lt : (d.stretch r p.start p.stop).anchor < (d.stretch r p.start p.stop).head
  covered : r.Covers (d.stretch r p.start p.stop)
  textOf?_eq : d.textOf? (d.stretch r p.start p.stop) = some (p.cut t)

theorem cuts_of_proper (places : d.HasPlaces r) (text : d.textOf? r = some t) {p : Piece}
    (lt : p.start < p.stop) (inside : p.stop ≤ t.length)
    (startWhole : ¬ d.text.SplitsBreak (d.index r.start + p.start))
    (stopWhole : ¬ d.text.SplitsBreak (d.index r.start + p.stop)) : d.Cuts r t p := by
  obtain ⟨before, after, split, start, stop⟩ := exists_append_of_textOf? text
  have length : d.text.length = before.length + t.length + after.length := by
    rw [split, List.length_append, List.length_append]
  have startCut : d.index r.start + p.start ∈ d.cuts := ⟨by omega, startWhole⟩
  have stopCut : d.index r.start + p.stop ∈ d.cuts := ⟨by omega, stopWhole⟩
  have forward : d.position (d.index r.start + p.start) < d.position (d.index r.start + p.stop) :=
    strictMonoOn_position startCut stopCut (by omega)
  have rangeStart :
      (d.stretch r p.start p.stop).start = d.position (d.index r.start + p.start) :=
    Range.start_mk_of_le forward.le
  have rangeStop : (d.stretch r p.start p.stop).stop = d.position (d.index r.start + p.stop) :=
    Range.stop_mk_of_le forward.le
  refine ⟨forward, ⟨?_, ?_⟩, ?_⟩
  · rw [rangeStart]
    calc
      r.start = d.position (d.index r.start) := (position_index places.start).symm
      _ ≤ d.position (d.index r.start + p.start) := position_mono (Nat.le_add_right _ _)
  · rw [rangeStop]
    calc
      d.position (d.index r.start + p.stop) ≤ d.position (d.index r.stop) :=
        position_mono (by omega)
      _ = r.stop := position_index places.stop
  · rw [textOf?, rangeStart, rangeStop, index_position startCut.1 startCut.2,
      index_position stopCut.1 stopCut.2, if_pos (Nat.add_le_add_left lt.le _), split, ← start,
      List.append_assoc, List.take_length_add_append, List.drop_length_add_append,
      List.take_append_of_le_length inside]
    rfl

/-- The range of a run of pieces lies within the range that it is taken from, has the text from the
start of the first of the two pieces to the end of the last one, and runs backward if the second
piece comes first. -/
structure RunsOver (d : Document) (r : Range) (t : Text) {pieces : List Piece}
    (i j : Fin pieces.length) (run : Range) : Prop where
  covered : r.Covers run
  textOf?_eq : d.textOf? run = some ((Piece.hull pieces i j).cut t)
  isReversed_iff : run.isReversed = true ↔ j < i

theorem runsOver_of_cuts {pieces : List Piece} {i j : Fin pieces.length}
    (cuts : d.Cuts r t (Piece.hull pieces i j)) :
    d.RunsOver r t i j
      (d.stretch r (Piece.runEnds pieces i j).1 (Piece.runEnds pieces i j).2) := by
  obtain ⟨forward, covered, text⟩ := cuts
  rcases lt_or_ge j i with backward | onward
  · -- The run is the flip of the stretch from the active piece to the anchor.
    rw [Piece.runEnds_of_lt backward, ← flip_stretch]
    refine ⟨?_, (textOf?_flip d _).trans text, iff_of_true (decide_eq_true forward) backward⟩
    simpa [Range.Covers] using covered
  · rw [Piece.runEnds_of_le onward]
    refine ⟨covered, text, iff_of_false ?_ (not_lt_of_ge onward)⟩
    simpa [Range.isReversed] using forward.le

theorem cuts_hull (places : d.HasPlaces r) (text : d.textOf? r = some t) {kind : PieceKind}
    (whole : kind = .character → ∀ i, ¬ d.text.SplitsBreak i)
    (i j : Fin (kind.pieces t).length) : d.Cuts r t (Piece.hull (kind.pieces t) i j) := by
  obtain ⟨lt, inside⟩ := (Piece.inOrder_pieces kind t).hull_proper i j
  cases kind with
  | word =>
      apply cuts_of_proper places text lt inside
      · exact not_splitsBreak_word text (List.getElem_mem (min i j).isLt) (Or.inl rfl)
      · exact not_splitsBreak_word text (List.getElem_mem (max i j).isLt) (Or.inr rfl)
  | character => exact cuts_of_proper places text lt inside (whole rfl _) (whole rfl _)

end Document

namespace Workspace

open Piece

variable {M T : Type} [ScopeMatcher M] [SyntaxProvider T] {w : Workspace M T} {d : Document}
  {s : Span} {t : Text} {kind : PieceKind}

/-- What the modifier for pieces comes to, once the text of its span is known. -/
theorem parts_subpiece_eq (w : Workspace M T) (kind : PieceKind) (text : d.textOf? s.range = some t)
    (anchor active : Int) :
    w.parts (.subpiece kind anchor active) d s = do
      let first ← indexAmong anchor (kind.pieces t).length
      let last ← indexAmong active (kind.pieces t).length
      let ends := runEnds (kind.pieces t) first last
      return [{ span := ⟨s.doc, d.stretch s.range ends.1 ends.2⟩ }] := by
  simp only [parts, Document.subpiece, text, bind_assoc]
  rfl

theorem parts_subpiece_eq_ok (text : d.textOf? s.range = some t) {anchor active : Int}
    {i j : Fin (kind.pieces t).length} (first : Names anchor i) (last : Names active j) :
    w.parts (.subpiece kind anchor active) d s =
      .ok [{ span := ⟨s.doc, d.stretch s.range (runEnds (kind.pieces t) i j).1
        (runEnds (kind.pieces t) i j).2⟩ }] := by
  rw [w.parts_subpiece_eq kind text, indexAmong_eq_ok_iff.mpr first, indexAmong_eq_ok_iff.mpr last]
  rfl

/-- What the modifier for pieces makes of a span with a text: the run from one named piece to
another, unless an index names no piece. -/
structure PieceRuns (w : Workspace M T) (d : Document) (s : Span) (kind : PieceKind) (t : Text) :
    Prop where
  isOk_iff : ∀ anchor active, (∃ parts, w.parts (.subpiece kind anchor active) d s = .ok parts) ↔
    HasIndex (kind.pieces t).length anchor ∧ HasIndex (kind.pieces t).length active
  run : ∀ anchor active (i j : Fin (kind.pieces t).length), Names anchor i → Names active j →
    ∃ run, w.parts (.subpiece kind anchor active) d s = .ok [{ span := ⟨s.doc, run⟩ }] ∧
      d.RunsOver s.range t i j run
  anchor_refused : ∀ anchor active, ¬ HasIndex (kind.pieces t).length anchor →
    w.parts (.subpiece kind anchor active) d s =
      refuse (.indexOutOfRange anchor (kind.pieces t).length)
  active_refused : ∀ anchor active, HasIndex (kind.pieces t).length anchor →
    ¬ HasIndex (kind.pieces t).length active →
    w.parts (.subpiece kind anchor active) d s =
      refuse (.indexOutOfRange active (kind.pieces t).length)
  from_end : ∀ k : Nat, k < (kind.pieces t).length → ∀ other : Int,
    w.parts (.subpiece kind (k - (kind.pieces t).length) other) d s =
        w.parts (.subpiece kind k other) d s ∧
      w.parts (.subpiece kind other (k - (kind.pieces t).length)) d s =
        w.parts (.subpiece kind other k) d s
  all_words : kind = .word → ∀ i j, IsLeast (spoken t) i → IsGreatest (spoken t) j →
    w.parts (.subpiece kind 0 (-1)) d s =
      .ok [{ span := ⟨s.doc, d.stretch s.range i (j + 1)⟩ }]

/-- Words can always be taken from a range of a document, and characters if the document has no
carriage return right before a line feed. -/
theorem parts_subpiece_runs (w : Workspace M T) {d : Document} {s : Span}
    (places : d.HasPlaces s.range) (kind : PieceKind)
    (whole : kind = .character → ∀ i, ¬ d.text.SplitsBreak i) :
    ∃ t, d.textOf? s.range = some t ∧ w.PieceRuns d s kind t := by
  obtain ⟨t, text⟩ := Document.exists_textOf? places.rows
  refine ⟨t, text, ?_⟩
  have run : ∀ anchor active (i j : Fin (kind.pieces t).length), Names anchor i →
      Names active j → ∃ run,
        w.parts (.subpiece kind anchor active) d s = .ok [{ span := ⟨s.doc, run⟩ }] ∧
          d.RunsOver s.range t i j run := by
    intro anchor active i j first last
    have cuts := Document.cuts_hull places text whole i j
    exact ⟨_, parts_subpiece_eq_ok text first last, Document.runsOver_of_cuts cuts⟩
  have anchor_refused : ∀ anchor active, ¬ HasIndex (kind.pieces t).length anchor →
      w.parts (.subpiece kind anchor active) d s =
        refuse (.indexOutOfRange anchor (kind.pieces t).length) := by
    intro anchor active outside
    rw [w.parts_subpiece_eq kind text, indexAmong_eq_refuse outside]
    rfl
  have active_refused : ∀ anchor active, HasIndex (kind.pieces t).length anchor →
      ¬ HasIndex (kind.pieces t).length active →
      w.parts (.subpiece kind anchor active) d s =
        refuse (.indexOutOfRange active (kind.pieces t).length) := by
    intro anchor active inside outside
    obtain ⟨i, names⟩ := exists_names_iff.mpr inside
    rw [w.parts_subpiece_eq kind text, indexAmong_eq_ok_iff.mpr names,
      indexAmong_eq_refuse outside]
    rfl
  refine ⟨?_, run, anchor_refused, active_refused, ?_, ?_⟩
  · intro anchor active
    constructor
    · rintro ⟨parts, found⟩
      by_contra outside
      by_cases inside : HasIndex (kind.pieces t).length anchor
      · rw [active_refused anchor active inside fun both => outside ⟨inside, both⟩] at found
        cases found
      · rw [anchor_refused anchor active inside] at found
        cases found
    · rintro ⟨anchorInside, activeInside⟩
      obtain ⟨i, first⟩ := exists_names_iff.mpr anchorInside
      obtain ⟨j, last⟩ := exists_names_iff.mpr activeInside
      obtain ⟨_, found, _⟩ := run anchor active i j first last
      exact ⟨_, found⟩
  · intro k inside other
    simp only [w.parts_subpiece_eq kind text, indexAmong_sub_count inside, and_self]
  · rintro rfl i j least greatest
    obtain ⟨first, last, zero, minusOne, le, covers⟩ := exists_hull_words least greatest
    rw [parts_subpiece_eq_ok text zero minusOne, runEnds_of_le le, covers]

/-- The text `ab` over `c`. -/
def twoRows : Document := ⟨⟨1⟩, "plaintext", ['a', 'b', '\n', 'c']⟩

theorem not_splitsBreak_twoRows (i : Nat) : ¬ twoRows.text.SplitsBreak i := by
  rintro ⟨before, after, split, _⟩
  have carriageReturn : '\r' ∈ twoRows.text := by
    rw [split]
    simp
  exact absurd carriageReturn (by decide)

/-- The last character of that text and the second one, with the break between them. -/
theorem twoRows_backward_run :
    ∃ run, ({ trees := .empty } : Workspace).parts (.subpiece .character (-1) 1) twoRows
        ⟨⟨1⟩, ⟨⟨1, 1⟩, ⟨0, 0⟩⟩⟩ = .ok [{ span := ⟨⟨1⟩, run⟩ }] ∧
      twoRows.textOf? run = some ['b', '\n', 'c'] ∧ run.isReversed = true := by
  obtain ⟨t, text, runs⟩ := parts_subpiece_runs ({ trees := .empty } : Workspace) (d := twoRows)
    (s := ⟨⟨1⟩, ⟨⟨1, 1⟩, ⟨0, 0⟩⟩⟩) ⟨rfl, rfl⟩ .character fun _ => not_splitsBreak_twoRows
  cases text
  obtain ⟨run, found, runsOver⟩ := runs.run (-1) 1 ⟨3, by decide⟩ ⟨1, by decide⟩ (Or.inr rfl)
    (Or.inl rfl)
  exact ⟨run, found, runsOver.textOf?_eq, runsOver.isReversed_iff.mpr (by decide)⟩

end Workspace

end TargetSpans
