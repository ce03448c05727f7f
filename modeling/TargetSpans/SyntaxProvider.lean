import TargetSpans.Keyed
import TargetSpans.SyntaxTree

/-!
# Syntax providers

A provider hands out the nodes of documents.  The usual one keeps the trees of the documents that
have one, and looks for the smallest node.
-/

namespace TargetSpans

/-- Where the nodes of documents come from. -/
class SyntaxProvider (T : Type) where
  /-- The smallest node at a position of a document, if there is one. -/
  nodeAt? : T → Document → Position → Option Node
  /-- A node that is handed out is a node of some tree. -/
  exists_within {trees : T} {d : Document} {p : Position} {n : Node}
    (found : nodeAt? trees d p = some n) : ∃ t, Node.Within t n

/-- The trees of documents by the numbers of the documents. -/
abbrev SyntaxTrees := Keyed DocumentId SyntaxTree

instance : SyntaxProvider SyntaxTrees where
  nodeAt? trees d p := (trees.get? d.id).map fun tree => Node.atOffset tree (d.byteOffset p)
  exists_within found := by
    obtain ⟨t, _, rfl⟩ := Option.map_eq_some_iff.mp found
    exact ⟨t, Node.within_atOffset t _⟩

end TargetSpans
