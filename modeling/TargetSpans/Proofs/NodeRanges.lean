import TargetSpans.Scope.Matcher
import TargetSpans.Proofs.Answer
import TargetSpans.Proofs.Rows
import TargetSpans.Proofs.TreeNodes

/-!
# Ranges of nodes

Byte offsets are turned into positions, clamped and rounded down, so that whatever offsets a tree
has lead to existing rows, and larger offsets to later positions.  The scope that a matcher finds
and its delimiters are therefore always defined; in an ordered tree the delimiters also touch the
scope.
-/

namespace TargetSpans

namespace Text

theorem charIndex_mono (t : Text) {a b : Nat} (le : a ≤ b) : t.charIndex a ≤ t.charIndex b := by
  induction t generalizing a b with
  | nil => exact Nat.le_refl _
  | cons c rest ih =>
      simp only [charIndex]
      split
      · exact Nat.zero_le _
      · rw [if_neg (by omega)]
        exact Nat.succ_le_succ (ih (by omega))

/-- The byte offset of a character lies in that character. -/
theorem charIndex_byteOffset {t : Text} {index : Nat} (le : index ≤ t.length) :
    t.charIndex (t.byteOffset index) = index := by
  induction t generalizing index with
  | nil => exact (Nat.le_zero.mp le).symm
  | cons c rest ih =>
      cases index with
      | zero => exact if_pos c.utf8Size_pos
      | succ index =>
          have offset : byteOffset (c :: rest) (index + 1) =
              c.utf8Size + byteOffset rest index := rfl
          rw [offset, charIndex, if_neg (by omega), Nat.add_sub_cancel_left,
            ih (Nat.le_of_succ_le_succ le)]

theorem lt_of_byteOffset_lt {t : Text} {i j : Nat} (first : i ≤ t.length) (second : j ≤ t.length)
    (lt : t.byteOffset i < t.byteOffset j) : i < j := by
  have le := t.charIndex_mono (Nat.le_of_lt lt)
  rw [charIndex_byteOffset first, charIndex_byteOffset second] at le
  apply Nat.lt_of_le_of_ne le
  rintro rfl
  exact Nat.lt_irrefl _ lt

/-- A break is split by no other byte offset than the one between its two characters, since both of
them have one byte. -/
theorem eq_byteOffset_of_splitsBreak_charIndex {t : Text} {offset : Nat}
    (splits : t.SplitsBreak (t.charIndex offset)) : offset = t.byteOffset (t.charIndex offset) := by
  obtain ⟨before, after, rfl, index⟩ := splits
  rw [index]
  induction before generalizing offset with
  | nil =>
      have feed : '\n'.utf8Size = 1 := rfl
      have carriageReturn : '\r'.utf8Size = 1 := rfl
      simp only [List.nil_append, charIndex, List.length_nil] at index
      simp only [List.nil_append, List.length_nil, byteOffset, List.take_succ_cons, List.take_zero,
        byteLength]
      split_ifs at index <;> omega
  | cons c before ih =>
      simp only [List.cons_append, charIndex, List.length_cons] at index
      split at index
      case isTrue => omega
      case isFalse past =>
        have rest := ih (Nat.succ.inj index)
        simp only [byteOffset, List.cons_append, List.length_cons, List.take_succ_cons,
          byteLength] at rest ⊢
        omega

end Text

namespace Document

variable {d : Document}

theorem positionOfByte_mono {a b : Nat} (le : a ≤ b) :
    d.positionOfByte a ≤ d.positionOfByte b :=
  position_mono (d.text.charIndex_mono le)

theorem positionOfByte_byteOffset {p : Position} (inside : d.contains p = true) :
    d.positionOfByte (d.byteOffset p) = p := by
  rw [positionOfByte, byteOffset, Text.charIndex_byteOffset (index_le_length p),
    position_index inside]

theorem hasRows_bytes (a b : Nat) : d.HasRows ⟨d.positionOfByte a, d.positionOfByte b⟩ :=
  hasRows_positions _ _

end Document

namespace Node

variable {d : Document} {t : SyntaxTree} {n : Node}

theorem hasRows_range (n : Node) (d : Document) : d.HasRows (n.range d) :=
  Document.hasRows_bytes _ _

/-- The delimiter before a node runs from the start or the stop of a sibling before it to the start
of the node. -/
theorem leadingDelimiter?_eq_some {delimiter : String} {r : Range}
    (found : n.leadingDelimiter? d delimiter = some r) :
    ∃ sibling ∈ n.before, ∃ offset,
      (offset = sibling.label.start ∨ offset = sibling.label.stop) ∧
        r = ⟨d.positionOfByte offset, d.positionOfByte n.label.start⟩ := by
  unfold leadingDelimiter? at found
  split at found
  case h_1 => cases found
  case h_2 sibling further siblings =>
    have adjacent : sibling ∈ n.before := by simp [siblings]
    split at found
    case isFalse => cases found
    case isTrue =>
      cases found
      cases head : further.head? with
      | none => exact ⟨sibling, adjacent, _, Or.inl rfl, rfl⟩
      | some previous =>
          have beyond : previous ∈ n.before := by
            rw [siblings]
            exact List.mem_cons_of_mem _ (List.mem_of_mem_head? head)
          cases named : previous.label.named with
          | true => exact ⟨previous, beyond, _, Or.inr rfl, by simp [named]⟩
          | false => exact ⟨sibling, adjacent, _, Or.inl rfl, by simp [named]⟩

/-- The delimiter after a node runs from the stop of the node to the start or the stop of a sibling
after it. -/
theorem trailingDelimiter?_eq_some {delimiter : String} {r : Range}
    (found : n.trailingDelimiter? d delimiter = some r) :
    ∃ sibling ∈ n.after, ∃ offset,
      (offset = sibling.label.start ∨ offset = sibling.label.stop) ∧
        r = ⟨d.positionOfByte n.label.stop, d.positionOfByte offset⟩ := by
  unfold trailingDelimiter? at found
  split at found
  case h_1 => cases found
  case h_2 sibling further siblings =>
    have adjacent : sibling ∈ n.after := by simp [siblings]
    split at found
    case isFalse => cases found
    case isTrue =>
      cases found
      cases head : further.head? with
      | none => exact ⟨sibling, adjacent, _, Or.inr rfl, rfl⟩
      | some next =>
          have beyond : next ∈ n.after := by
            rw [siblings]
            exact List.mem_cons_of_mem _ (List.mem_of_mem_head? head)
          cases named : next.label.named with
          | true => exact ⟨next, beyond, _, Or.inl rfl, by simp [named]⟩
          | false => exact ⟨sibling, adjacent, _, Or.inr rfl, by simp [named]⟩

theorem hasRows_leadingDelimiter? {delimiter : String} {r : Range}
    (found : n.leadingDelimiter? d delimiter = some r) : d.HasRows r := by
  obtain ⟨_, _, offset, _, rfl⟩ := leadingDelimiter?_eq_some found
  exact Document.hasRows_bytes _ _

theorem hasRows_trailingDelimiter? {delimiter : String} {r : Range}
    (found : n.trailingDelimiter? d delimiter = some r) : d.HasRows r := by
  obtain ⟨_, _, offset, _, rfl⟩ := trailingDelimiter?_eq_some found
  exact Document.hasRows_bytes _ _

/-- The context that the siblings of a node give is always defined: a list whose literal is the
text of the nearest delimiter, with the node widened over that delimiter as outer range. -/
theorem exists_siblingContext (n : Node) (d : Document) (delimiter : String) :
    ∃ c, n.siblingContext d delimiter = .ok c ∧ c.inList = true ∧ c.literal.isSome ∧
      c.leading = n.leadingDelimiter? d delimiter ∧
      c.trailing = n.trailingDelimiter? d delimiter ∧
      (∀ nearest, c.nearest? = some nearest → d.textOf? nearest = c.literal) ∧
      c.outer = c.nearest?.map (n.range d).union := by
  cases either : (n.trailingDelimiter? d delimiter <|> n.leadingDelimiter? d delimiter) with
  | none =>
      refine ⟨.ofDelimiters (delimiter.toList ++ [' ']) (n.leadingDelimiter? d delimiter)
        (n.trailingDelimiter? d delimiter), ?_, rfl, rfl, rfl, rfl, ?_, ?_⟩
      · simp only [siblingContext, either]
        rfl
      · intro nearest found
        exact absurd (found.symm.trans either) (by simp)
      · exact (congrArg (Option.map (n.range d).union) either).symm
  | some nearest =>
      have rows : d.HasRows nearest := by
        rcases trailing : n.trailingDelimiter? d delimiter with _ | delimiterRange
        · have leading : n.leadingDelimiter? d delimiter = some nearest := by
            simpa [trailing] using either
          exact hasRows_leadingDelimiter? leading
        · have same : delimiterRange = nearest := by simpa [trailing] using either
          exact same ▸ hasRows_trailingDelimiter? trailing
      obtain ⟨literal, text⟩ := Document.exists_textOf? rows
      refine ⟨{ DelimiterContext.ofDelimiters literal (n.leadingDelimiter? d delimiter)
          (n.trailingDelimiter? d delimiter) with outer := some ((n.range d).union nearest) },
        ?_, rfl, rfl, rfl, rfl, ?_, ?_⟩
      · simp only [siblingContext, either, text]
        rfl
      · intro other found
        have same : nearest = other := Option.some.inj (either.symm.trans found)
        exact same ▸ text
      · exact (congrArg (Option.map (n.range d).union) either).symm

/-! ## Ordered trees -/

section Ordered

variable (within : Within t n) (ordered : t.Ordered)

include within ordered

theorem start_range : (n.range d).start = d.positionOfByte n.label.start :=
  Range.start_mk_of_le (Document.positionOfByte_mono (within.ordered ordered).start_le_stop)

theorem stop_range : (n.range d).stop = d.positionOfByte n.label.stop :=
  Range.stop_mk_of_le (Document.positionOfByte_mono (within.ordered ordered).start_le_stop)

/-- In an ordered tree the delimiter before a node ends where the node starts. -/
theorem leadingDelimiter?_touches {delimiter : String} {r : Range}
    (found : n.leadingDelimiter? d delimiter = some r) : r.stop = (n.range d).start := by
  obtain ⟨sibling, member, offset, ends, rfl⟩ := leadingDelimiter?_eq_some found
  have extent := within.stop_le_start_of_mem_before ordered member
  have le : offset ≤ n.label.start := by omega
  rw [start_range within ordered]
  exact Range.stop_mk_of_le (Document.positionOfByte_mono le)

/-- In an ordered tree the delimiter after a node starts where the node ends. -/
theorem trailingDelimiter?_touches {delimiter : String} {r : Range}
    (found : n.trailingDelimiter? d delimiter = some r) : r.start = (n.range d).stop := by
  obtain ⟨sibling, member, offset, ends, rfl⟩ := trailingDelimiter?_eq_some found
  have extent := within.stop_le_start_of_mem_after ordered member
  have le : n.label.stop ≤ offset := by omega
  rw [stop_range within ordered]
  exact Range.start_mk_of_le (Document.positionOfByte_mono le)

end Ordered

end Node

namespace NodeMatcher

/-- Where a scope comes from: a node that the matcher accepts, narrowed to the node of the scope,
whose siblings give the context if the matcher names a delimiter. -/
structure ScopeFrom (m : NodeMatcher) (d : Document) (n scope : Node) (found : ScopeMatch) :
    Prop where
  accepted : m.accepts n = true
  narrowed : m.scopeNode? n = some scope
  range : found.range = scope.range d
  context : m.delimiter = none ∧ found.context = {} ∨
    ∃ delimiter, m.delimiter = some delimiter ∧
      scope.siblingContext d delimiter = .ok found.context

/-- The search for a scope is always defined. -/
theorem find_yields (m : NodeMatcher) (d : Document) (n : Node) :
    Answer.Yields (fun result => ∀ found, result = some found →
      ∃ scope, m.ScopeFrom d n scope found) (m.find d n) := by
  unfold find
  split
  case isFalse => exact Answer.yields_ok (by simp)
  case isTrue accepted =>
    split
    case h_1 => exact Answer.yields_ok (by simp)
    case h_2 scope narrowed =>
      cases delimited : m.delimiter with
      | none =>
          apply Answer.yields_ok
          rintro found ⟨⟩
          exact ⟨scope, accepted, narrowed, rfl, Or.inl ⟨delimited, rfl⟩⟩
      | some delimiter =>
          obtain ⟨c, context, _⟩ := scope.exists_siblingContext d delimiter
          simp only [context]
          apply Answer.yields_ok
          rintro found ⟨⟩
          exact ⟨scope, accepted, narrowed, rfl, Or.inr ⟨delimiter, delimited, context⟩⟩

theorem exists_scopeFrom {m : NodeMatcher} {d : Document} {n : Node} {found : ScopeMatch}
    (here : m.find d n = .ok (some found)) : ∃ scope, m.ScopeFrom d n scope found :=
  (m.find_yields d n).of_eq_ok here found rfl

theorem within_scopeNode? {m : NodeMatcher} {t : SyntaxTree} {n scope : Node}
    (within : Node.Within t n) (narrowed : m.scopeNode? n = some scope) :
    Node.Within t scope := by
  unfold scopeNode? at narrowed
  split at narrowed
  · cases narrowed
    exact within
  · exact within.childByField? narrowed

end NodeMatcher

end TargetSpans
