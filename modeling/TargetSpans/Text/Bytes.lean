import TargetSpans.Text.Lines

/-!
# Byte offsets

The offsets of a text in its UTF-8 form beside the indices of its characters.  An offset inside a
character counts for the character it lies in, and an offset past the end for the end.
-/

namespace TargetSpans.Text

/-- The number of bytes of a text in UTF-8. -/
def byteLength : Text → Nat
  | [] => 0
  | c :: rest => c.utf8Size + byteLength rest

/-- The byte offset of the character at an index. -/
def byteOffset (t : Text) (index : Nat) : Nat := byteLength (t.take index)

/-- The index of the character that a byte offset lies in. -/
def charIndex : Text → Nat → Nat
  | [], _ => 0
  | c :: rest, offset =>
      if offset < c.utf8Size then 0 else charIndex rest (offset - c.utf8Size) + 1

end TargetSpans.Text
