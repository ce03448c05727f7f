import TargetSpans.Proofs.Stages
import TargetSpans.Proofs.Words

/-!
# Ranges between places

Where the ends of the ranges that a resolution comes across can lie.  Line ends and starts, guessed
delimiters and the bounds of words are places of every document, and nodes are if no byte offset of
the tree lies between the two characters of a break.  A run of characters is the one exception: it
can stop within a break that lies in the range it is taken from.
-/

namespace TargetSpans

open Answer

namespace Document

/-- Both ends of a range are places of a document. -/
structure HasPlaces (d : Document) (r : Range) : Prop where
  anchor : d.contains r.anchor = true
  head : d.contains r.head = true

variable {d : Document} {r s : Range}

namespace HasPlaces

theorem rows (places : d.HasPlaces r) : d.HasRows r :=
  hasRows_of_contains places.anchor places.head

theorem start (places : d.HasPlaces r) : d.contains r.start = true := by
  rcases r.start_eq_anchor_or_head with equal | equal <;> rw [equal]
  · exact places.anchor
  · exact places.head

theorem stop (places : d.HasPlaces r) : d.contains r.stop = true := by
  rcases r.stop_eq_anchor_or_head with equal | equal <;> rw [equal]
  · exact places.anchor
  · exact places.head

/-- The ends of a range are its bounds, in one order or the other. -/
theorem of_bounds (start : d.contains r.start = true) (stop : d.contains r.stop = true) :
    d.HasPlaces r := by
  rcases le_total r.anchor r.head with forward | backward
  · have first : r.start = r.anchor := Range.start_mk_of_le forward
    have last : r.stop = r.head := Range.stop_mk_of_le forward
    exact ⟨first ▸ start, last ▸ stop⟩
  · have first : r.start = r.head := Range.start_mk_of_ge backward
    have last : r.stop = r.anchor := Range.stop_mk_of_ge backward
    exact ⟨last ▸ stop, first ▸ start⟩

theorem point {p : Position} (inside : d.contains p = true) : d.HasPlaces (.point p) :=
  ⟨inside, inside⟩

theorem toward (places : d.HasPlaces r) (direction : Direction) :
    d.HasPlaces (r.toward direction) := by
  apply of_bounds
  · rw [Range.start_toward]
    exact places.start
  · rw [Range.stop_toward]
    exact places.stop

theorem union (first : d.HasPlaces r) (second : d.HasPlaces s) : d.HasPlaces (r.union s) := by
  apply of_bounds
  · rw [Range.start_union]
    rcases min_choice r.start s.start with equal | equal <;> rw [equal]
    · exact first.start
    · exact second.start
  · rw [Range.stop_union]
    rcases max_choice r.stop s.stop with equal | equal <;> rw [equal]
    · exact first.stop
    · exact second.stop

end HasPlaces

/-- The ends of all ranges of a context are places of a document. -/
structure HasContext (d : Document) (c : DelimiterContext) : Prop where
  leading : ∀ r, c.leading = some r → d.HasPlaces r
  trailing : ∀ r, c.trailing = some r → d.HasPlaces r
  outer : ∀ r, c.outer = some r → d.HasPlaces r

theorem HasContext.empty : d.HasContext {} :=
  ⟨by simp, by simp, by simp⟩

theorem HasContext.nearest {c : DelimiterContext} (fits : d.HasContext c) {nearest : Range}
    (found : c.nearest? = some nearest) : d.HasPlaces nearest := by
  cases trailing : c.trailing with
  | some delimiter =>
      have same : delimiter = nearest := by simpa [DelimiterContext.nearest?, trailing] using found
      exact fits.trailing nearest (same ▸ trailing)
  | none =>
      have leading : c.leading = some nearest := by
        simpa [DelimiterContext.nearest?, trailing] using found
      exact fits.leading nearest leading

/-! ## Delimiters on a line -/

theorem hasPlaces_of_separatorsBefore? {p : Position} (inside : d.contains p = true)
    {delimiter : Range} (found : d.separatorsBefore? p = some (some delimiter)) :
    d.HasPlaces delimiter := by
  obtain ⟨l, line, le⟩ := contains_iff.mp inside
  obtain ⟨_, same, equal⟩ := exists_separatorsBefore? (row_lt_of_contains inside)
  rw [equal, Option.some.injEq, Option.map_eq_some_iff] at found
  obtain ⟨run, _, rfl⟩ := found
  exact ⟨contains_iff.mpr ⟨l, line, Nat.le_trans (Nat.sub_le _ _) le⟩, inside⟩

/-- The run of separators after a place ends on its line. -/
theorem hasPlaces_of_separatorsAfter? {p : Position} (inside : d.contains p = true)
    {delimiter : Range} (found : d.separatorsAfter? p = some (some delimiter)) :
    d.HasPlaces delimiter := by
  obtain ⟨l, line, equal⟩ := exists_separatorsAfter? (row_lt_of_contains inside)
  rw [equal, Option.some.injEq, Option.map_eq_some_iff] at found
  obtain ⟨run, counted, rfl⟩ := found
  have short := (Text.of_separatorRun?_eq_some counted).2.2
  rw [List.length_drop] at short
  have le : p.col + run ≤ l.length := by
    simp only [Line.length]
    omega
  exact ⟨inside, contains_iff.mpr ⟨l, line, le⟩⟩

theorem hasContext_of_inferDelimiters? {c : DelimiterContext} (places : d.HasPlaces r)
    (guessed : d.inferDelimiters? r = some c) : d.HasContext c := by
  obtain ⟨leading, trailing, before, after, ⟨_, equal⟩ | ⟨_, literal, _, _, equal⟩⟩ :=
    exists_inferDelimiters? places.rows
  · cases equal.symm.trans guessed
    exact HasContext.empty
  · cases equal.symm.trans guessed
    refine ⟨?_, ?_, by simp [DelimiterContext.ofDelimiters]⟩
    · rintro delimiter rfl
      exact hasPlaces_of_separatorsBefore? places.start before
    · rintro delimiter rfl
      exact hasPlaces_of_separatorsAfter? places.stop after

/-! ## Whole rows -/

theorem contains_lineStart {row : Nat} (inside : row < d.lineCount) :
    d.contains ⟨row, 0⟩ = true := by
  obtain ⟨l, line⟩ := exists_line? inside
  exact contains_iff.mpr ⟨l, line, Nat.zero_le _⟩

theorem contains_lineEnd? {row : Nat} {p : Position} (found : d.lineEnd? row = some p) :
    d.contains p = true := by
  obtain ⟨l, line, rfl⟩ := Option.map_eq_some_iff.mp found
  exact contains_iff.mpr ⟨l, line, Nat.le_refl _⟩

theorem hasPlaces_of_rowRange? {first last : Nat} {rows : Range}
    (found : d.rowRange? first last = some rows) : d.HasPlaces rows := by
  obtain ⟨top, bottom, foundTop, foundBottom, rfl⟩ := rowRange?_eq_some found
  exact ⟨contains_iff.mpr ⟨top, foundTop, top.indent_le_length⟩,
    contains_lineEnd? (lineEnd?_of_line? foundBottom)⟩

theorem hasContext_of_rowDelimiters? {above below : Option Nat} {c : DelimiterContext}
    (places : d.HasPlaces r) (belowInside : ∀ row, below = some row → row < d.lineCount)
    (found : d.rowDelimiters? r above below = some c) : d.HasContext c := by
  obtain ⟨leading, trailing, bottom, bottomLine, full⟩ := of_rowDelimiters?_eq_some found
  constructor
  · intro delimiter known
    rcases leading with ⟨_, none⟩ | ⟨row, line, _, aboveLine, some⟩
    · cases none.symm.trans known
    · cases some.symm.trans known
      exact ⟨contains_lineEnd? (lineEnd?_of_line? aboveLine), places.start⟩
  · intro delimiter known
    obtain ⟨row, isBelow, rfl⟩ := Option.map_eq_some_iff.mp (trailing.symm.trans known)
    exact ⟨places.stop, contains_lineStart (belowInside row isBelow)⟩
  · intro outer known
    cases full.symm.trans known
    exact ⟨contains_lineStart (row_lt_of_contains places.start),
      contains_lineEnd? (lineEnd?_of_line? bottomLine)⟩

theorem hasContext_of_lineDelimiters? {c : DelimiterContext} (places : d.HasPlaces r)
    (found : d.lineDelimiters? r = some c) : d.HasContext c := by
  apply hasContext_of_rowDelimiters? places _ found
  intro row below
  split at below
  · cases below
    assumption
  · cases below

theorem hasContext_of_paragraphDelimiters? {c : DelimiterContext} (places : d.HasPlaces r)
    (found : d.paragraphDelimiters? r = some c) : d.HasContext c := by
  apply hasContext_of_rowDelimiters? places _ found
  intro row below
  split_ifs at below
  · cases below
    assumption
  · cases below
    assumption

/-- What a range grows to has places as its ends, and so have the ranges around it.  Only a token
has nothing but its own ends to offer. -/
theorem Grows.hasPlaces {known context : DelimiterContext} {selectionType : SelectionType}
    {grown : Range} (fits : d.HasContext known)
    (places : selectionType = .token → d.HasPlaces r)
    (grows : d.Grows r known selectionType grown context) :
    d.HasPlaces grown ∧ d.HasContext context := by
  cases grows with
  | token kept inferred =>
      have own := places rfl
      refine ⟨own, ?_⟩
      cases empty : known.isEmpty with
      | true => exact hasContext_of_inferDelimiters? own (inferred empty)
      | false => exact kept empty ▸ fits
  | line whole kept fresh =>
      have rows := hasPlaces_of_rowRange? whole
      refine ⟨rows, ?_⟩
      cases listed : known.inList with
      | true => exact kept listed ▸ fits
      | false => exact hasContext_of_lineDelimiters? rows (fresh listed)
  | paragraph whole kept fresh =>
      have rows := hasPlaces_of_rowRange? whole
      refine ⟨rows, ?_⟩
      cases listed : known.inList with
      | true => exact kept listed ▸ fits
      | false => exact hasContext_of_paragraphDelimiters? rows (fresh listed)
  | document =>
      have first : d.contains .origin = true :=
        contains_lineStart (Nat.zero_lt_of_lt (row_lt_of_contains contains_finish))
      exact ⟨⟨first, contains_finish⟩, fits⟩

end Document

/-- No node of a tree starts or stops between the two characters of a break. -/
inductive SyntaxTree.SparesBreaks (t : Text) : SyntaxTree → Prop
  | node {label : NodeLabel} {children : List SyntaxTree}
      (start : ∀ i, t.SplitsBreak i → label.start ≠ t.byteOffset i)
      (stop : ∀ i, t.SplitsBreak i → label.stop ≠ t.byteOffset i)
      (below : ∀ child ∈ children, SparesBreaks t child) : SparesBreaks t (.node label children)

namespace SyntaxTree.SparesBreaks

variable {t : Text} {tree : SyntaxTree}

theorem of_mem_children (spares : tree.SparesBreaks t) {child : SyntaxTree}
    (member : child ∈ tree.children) : child.SparesBreaks t := by
  cases spares with
  | node start stop below => exact below child member

variable {d : Document}

theorem contains_start (spares : tree.SparesBreaks d.text) :
    d.contains (d.positionOfByte tree.label.start) = true := by
  cases spares with
  | node start stop below =>
      rw [Document.positionOfByte, Document.contains_position_iff]
      exact fun splits => start _ splits (Text.eq_byteOffset_of_splitsBreak_charIndex splits)

theorem contains_stop (spares : tree.SparesBreaks d.text) :
    d.contains (d.positionOfByte tree.label.stop) = true := by
  cases spares with
  | node start stop below =>
      rw [Document.positionOfByte, Document.contains_position_iff]
      exact fun splits => stop _ splits (Text.eq_byteOffset_of_splitsBreak_charIndex splits)

end SyntaxTree.SparesBreaks

namespace Node

variable {d : Document} {t : SyntaxTree} {n : Node}

section SparesBreaks

variable (within : Within t n) (spares : t.SparesBreaks d.text)

include within spares

theorem siblings_spareBreaks :
    ∀ sibling ∈ n.before.reverse ++ n.tree :: n.after, sibling.SparesBreaks d.text :=
  within.siblings_inherit (fun _ parent _ => parent.of_mem_children) spares

theorem hasPlaces_range : d.HasPlaces (n.range d) := by
  have own := siblings_spareBreaks within spares n.tree (by simp)
  exact ⟨own.contains_start, own.contains_stop⟩

theorem hasPlaces_leadingDelimiter? {delimiter : String} {r : Range}
    (found : n.leadingDelimiter? d delimiter = some r) : d.HasPlaces r := by
  obtain ⟨sibling, member, offset, ends, rfl⟩ := leadingDelimiter?_eq_some found
  have spared := siblings_spareBreaks within spares sibling (by simp [member])
  refine ⟨?_, (hasPlaces_range within spares).anchor⟩
  rcases ends with rfl | rfl
  · exact spared.contains_start
  · exact spared.contains_stop

theorem hasPlaces_trailingDelimiter? {delimiter : String} {r : Range}
    (found : n.trailingDelimiter? d delimiter = some r) : d.HasPlaces r := by
  obtain ⟨sibling, member, offset, ends, rfl⟩ := trailingDelimiter?_eq_some found
  have spared := siblings_spareBreaks within spares sibling (by simp [member])
  refine ⟨(hasPlaces_range within spares).head, ?_⟩
  rcases ends with rfl | rfl
  · exact spared.contains_start
  · exact spared.contains_stop

theorem hasContext_of_siblingContext {delimiter : String} {c : DelimiterContext}
    (known : n.siblingContext d delimiter = .ok c) : d.HasContext c := by
  obtain ⟨_, defined, _, _, leading, trailing, _, outer⟩ := n.exists_siblingContext d delimiter
  cases known.symm.trans defined
  have leadingPlaces : ∀ r, c.leading = some r → d.HasPlaces r := fun r found =>
    hasPlaces_leadingDelimiter? within spares (leading.symm.trans found)
  have trailingPlaces : ∀ r, c.trailing = some r → d.HasPlaces r := fun r found =>
    hasPlaces_trailingDelimiter? within spares (trailing.symm.trans found)
  refine ⟨leadingPlaces, trailingPlaces, fun r found => ?_⟩
  rw [outer, Option.map_eq_some_iff] at found
  obtain ⟨nearest, isNearest, rfl⟩ := found
  have delimits : d.HasContext { c with outer := none } :=
    ⟨leadingPlaces, trailingPlaces, by simp⟩
  exact (hasPlaces_range within spares).union (delimits.nearest isNearest)

end SparesBreaks

end Node

namespace Document

variable {d : Document} {r : Range}

/-! ## Pieces -/

/-- A run of the characters of a range, from one index to another, starts or stops between the two
characters of a break. -/
def CutsBreak (d : Document) (r : Range) (anchor active : Int) : Prop :=
  ∃ t first last, d.textOf? r = some t ∧
    Piece.indexAmong anchor (Piece.characters t).length = .ok first ∧
    Piece.indexAmong active (Piece.characters t).length = .ok last ∧
    let ends := Piece.runEnds (Piece.characters t) first last
    d.text.SplitsBreak (d.index r.start + ends.1) ∨ d.text.SplitsBreak (d.index r.start + ends.2)

/-- Neither end of a word splits a break, for the characters of a break are separators. -/
theorem not_splitsBreak_word {t : Text} (text : d.textOf? r = some t) {p : Piece}
    (member : p ∈ Piece.words t) {i : Nat} (boundary : i = p.start ∨ i = p.stop) :
    ¬ d.text.SplitsBreak (d.index r.start + i) := by
  obtain ⟨front, rest, whole, base, _⟩ := exists_append_of_textOf? text
  obtain ⟨before, word, after, rfl, rfl, nonempty, plain⟩ := Piece.exists_append_of_mem_words member
  rw [whole, ← base]
  intro splits
  rcases boundary with rfl | rfl
  · have cut : front ++ (before ++ word ++ after) ++ rest =
        (front ++ before) ++ (word ++ (after ++ rest)) := by simp
    rw [cut, ← List.length_append, Text.splitsBreak_append_iff] at splits
    obtain ⟨_, _, _, feed⟩ := splits
    obtain ⟨c, more, rfl⟩ := List.exists_cons_of_ne_nil nonempty
    obtain ⟨rfl, _⟩ := List.cons.inj feed
    exact plain '\n' List.mem_cons_self rfl
  · have cut : front ++ (before ++ word ++ after) ++ rest =
        (front ++ before ++ word) ++ (after ++ rest) := by simp
    have length : front.length + (before.length + word.length) =
        (front ++ before ++ word).length := by simp
    rw [cut, length, Text.splitsBreak_append_iff] at splits
    obtain ⟨_, _, carriageReturn, _⟩ := splits
    obtain ⟨init, c, rfl⟩ := word.eq_nil_or_concat'.resolve_left nonempty
    rw [← List.append_assoc] at carriageReturn
    obtain ⟨_, last⟩ := List.append_inj' carriageReturn rfl
    cases last
    exact plain '\r' (List.mem_append_right _ List.mem_cons_self) rfl

theorem runEnds_boundaries {pieces : List Piece} (anchor active : Fin pieces.length) :
    (∃ p ∈ pieces, (Piece.runEnds pieces anchor active).1 = p.start ∨
      (Piece.runEnds pieces anchor active).1 = p.stop) ∧
    ∃ p ∈ pieces, (Piece.runEnds pieces anchor active).2 = p.start ∨
      (Piece.runEnds pieces anchor active).2 = p.stop := by
  have anchorMember : pieces[anchor] ∈ pieces := List.getElem_mem anchor.isLt
  have activeMember : pieces[active] ∈ pieces := List.getElem_mem active.isLt
  unfold Piece.runEnds
  split
  · exact ⟨⟨_, anchorMember, Or.inr rfl⟩, ⟨_, activeMember, Or.inl rfl⟩⟩
  · exact ⟨⟨_, anchorMember, Or.inl rfl⟩, ⟨_, activeMember, Or.inr rfl⟩⟩

theorem hasPlaces_positions_iff {i j : Nat} :
    d.HasPlaces ⟨d.position i, d.position j⟩ ↔
      ¬ (d.text.SplitsBreak i ∨ d.text.SplitsBreak j) := by
  rw [not_or, ← contains_position_iff, ← contains_position_iff]
  exact ⟨fun places => ⟨places.anchor, places.head⟩, fun ⟨anchor, head⟩ => ⟨anchor, head⟩⟩

/-- A run of pieces lies in the document unless it is one of characters that cuts a break. -/
theorem subpiece_hasPlaces_iff {kind : PieceKind} {anchor active : Int} {piece : Range}
    (found : d.subpiece r kind anchor active = .ok piece) :
    d.HasPlaces piece ↔ ¬ (kind = .character ∧ d.CutsBreak r anchor active) := by
  obtain ⟨t, text, found⟩ := bind_eq_ok_iff.mp found
  obtain ⟨first, isFirst, found⟩ := bind_eq_ok_iff.mp found
  obtain ⟨last, isLast, found⟩ := bind_eq_ok_iff.mp found
  rw [ofOption_eq_ok_iff] at text
  cases found
  rw [hasPlaces_positions_iff, not_iff_not]
  cases kind with
  | word =>
      obtain ⟨⟨p, member, boundary⟩, ⟨q, member', boundary'⟩⟩ := runEnds_boundaries first last
      have notFirst := not_splitsBreak_word text member boundary
      have notLast := not_splitsBreak_word text member' boundary'
      simp [notFirst, notLast]
  | character =>
      simp only [true_and]
      constructor
      · intro splits
        exact ⟨t, first, last, text, isFirst, isLast, splits⟩
      · rintro ⟨t', first', last', text', isFirst', isLast', splits⟩
        -- The text and the indices leave no choice, so these are the ends that the piece has.
        cases text.symm.trans text'
        cases isFirst.symm.trans isFirst'
        cases isLast.symm.trans isLast'
        exact splits

end Document

end TargetSpans
