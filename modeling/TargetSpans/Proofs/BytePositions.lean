import TargetSpans.Proofs.NodeRanges

/-!
# Positions of byte offsets

Every byte offset has a position: inside a character it counts for that character, and past the text
for its end.  Characters of several bytes and breaks of two characters make this neither injective
nor onto, but positions never go back where offsets go on.  That alone makes the range of a node run
forward and lie within the ranges of the nodes around it, even if the offsets are those of an older
text.
-/

namespace TargetSpans

namespace Text

theorem charIndex_append_cons {before after : Text} {c : Char} {offset : Nat}
    (reached : byteLength before ≤ offset) (inside : offset < byteLength before + c.utf8Size) :
    charIndex (before ++ c :: after) offset = before.length := by
  induction before generalizing offset with
  | nil =>
      rw [byteLength, Nat.zero_add] at inside
      exact if_pos inside
  | cons first rest ih =>
      rw [byteLength] at reached inside
      rw [List.cons_append, charIndex, if_neg (by omega), ih (by omega) (by omega),
        List.length_cons]

theorem charIndex_of_byteLength_le {t : Text} {offset : Nat} (past : byteLength t ≤ offset) :
    charIndex t offset = t.length := by
  induction t generalizing offset with
  | nil => rfl
  | cons c rest ih =>
      rw [byteLength] at past
      rw [charIndex, if_neg (by omega), ih (by omega), List.length_cons]

end Text

namespace Document

variable {d : Document}

theorem position_length (d : Document) : d.position d.text.length = d.finish := by
  rw [← index_finish, position_index contains_finish]

theorem positionOfByte_of_byteLength_le {offset : Nat}
    (past : Text.byteLength d.text ≤ offset) : d.positionOfByte offset = d.finish := by
  rw [positionOfByte, Text.charIndex_of_byteLength_le past, position_length]

/-- All bytes of a character have the position of the character. -/
theorem positionOfByte_of_split {before after : Text} {c : Char} {offset : Nat}
    (split : d.text = before ++ c :: after) (reached : Text.byteLength before ≤ offset)
    (inside : offset < Text.byteLength before + c.utf8Size) :
    d.positionOfByte offset = d.position before.length := by
  rw [positionOfByte, split, Text.charIndex_append_cons reached inside]

end Document

namespace Node

variable {n outer : Node}

/-- A node whose offsets are in order has a range that runs forward, whatever the text. -/
theorem isReversed_range (ordered : n.label.start ≤ n.label.stop) (d : Document) :
    (n.range d).isReversed = false :=
  decide_eq_false (not_lt_of_ge (Document.positionOfByte_mono ordered))

/-- A node whose bytes lie within those of another node has its range within that of the other. -/
theorem range_covers_range (ordered : n.label.start ≤ n.label.stop)
    (start : outer.label.start ≤ n.label.start) (stop : n.label.stop ≤ outer.label.stop)
    (d : Document) : (outer.range d).Covers (n.range d) := by
  have le := Document.positionOfByte_mono (d := d) ordered
  have outerStart := Document.positionOfByte_mono (d := d) start
  have outerStop := Document.positionOfByte_mono (d := d) stop
  refine (Range.mk_covers_iff (outerStart.trans (le.trans outerStop))).mpr ⟨?_, ?_⟩
  · rw [range, Range.start_mk_of_le le]
    exact outerStart
  · rw [range, Range.stop_mk_of_le le]
    exact outerStop

end Node

/-- Positions go up with byte offsets: all bytes of a character have its position, all offsets past
the text have the last one, and the offset of a position on the content of a line leads back to it.
Hence the range of a node with ordered offsets runs forward, and nodes within one another have
ranges within one another, even if their tree is not that of the text. -/
theorem Document.positionOfByte_monotone (d : Document) :
    Monotone d.positionOfByte ∧
    (∀ before c after offset, d.text = before ++ c :: after → Text.byteLength before ≤ offset →
      offset < Text.byteLength before + c.utf8Size →
        d.positionOfByte offset = d.position before.length) ∧
    (∀ offset, Text.byteLength d.text ≤ offset → d.positionOfByte offset = d.finish) ∧
    Set.LeftInvOn d.positionOfByte d.byteOffset d.places ∧
    (∀ n : Node, n.label.start ≤ n.label.stop → (n.range d).isReversed = false) ∧
    ∀ n outer : Node, n.label.start ≤ n.label.stop → outer.label.start ≤ n.label.start →
      n.label.stop ≤ outer.label.stop → (outer.range d).Covers (n.range d) := by
  refine ⟨fun _ _ => positionOfByte_mono, fun _ _ _ _ => positionOfByte_of_split,
    fun _ => positionOfByte_of_byteLength_le, ?_, fun _ ordered => Node.isReversed_range ordered d,
    fun _ _ ordered start stop => Node.range_covers_range ordered start stop d⟩
  exact fun p place => positionOfByte_byteOffset place

/-- The second byte of a letter, the break after it, and offsets past the end. -/
example :
    let d : Document := ⟨⟨1⟩, "plaintext", ['é', '\r', '\n', 'b']⟩
    [0, 1, 2, 3, 4, 5, 9].map d.positionOfByte =
      [⟨0, 0⟩, ⟨0, 0⟩, ⟨0, 1⟩, ⟨0, 2⟩, ⟨1, 0⟩, ⟨1, 1⟩, ⟨1, 1⟩] := by
  decide

end TargetSpans
