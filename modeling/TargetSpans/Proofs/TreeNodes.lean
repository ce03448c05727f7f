import Mathlib.Data.List.Basic
import TargetSpans.SyntaxTree

/-!
# The nodes of a tree

A search through a tree starts at the smallest node at an offset and goes on to parents and
children.  All nodes that it can meet lie in the tree, and in a tree whose siblings are in order so
are the siblings that each of them remembers.
-/

namespace TargetSpans

namespace SyntaxTree

/-- Every node of a tree covers a stretch of bytes, and the stretches of siblings come one after
another without overlap. -/
inductive Ordered : SyntaxTree → Prop
  | node {label : NodeLabel} {children : List SyntaxTree} (extent : label.start ≤ label.stop)
      (apart : children.Pairwise fun left right => left.label.stop ≤ right.label.start)
      (below : ∀ child ∈ children, Ordered child) : Ordered (.node label children)

namespace Ordered

variable {t : SyntaxTree}

theorem start_le_stop (ordered : t.Ordered) : t.label.start ≤ t.label.stop := by
  cases ordered with
  | node extent apart below => exact extent

theorem pairwise_children (ordered : t.Ordered) :
    t.children.Pairwise fun left right => left.label.stop ≤ right.label.start := by
  cases ordered with
  | node extent apart below => exact apart

theorem of_mem_children (ordered : t.Ordered) {child : SyntaxTree} (member : child ∈ t.children) :
    child.Ordered := by
  cases ordered with
  | node extent apart below => exact below child member

end Ordered

end SyntaxTree

namespace Node

theorem parent?_of_mem_children {n c : Node} (member : c ∈ n.children) : c.parent? = some n := by
  obtain ⟨left, child, right, _, rfl⟩ := mem_children_iff.mp member
  rfl

namespace Within

variable {t : SyntaxTree} {n : Node}

theorem parent (within : Within t n) {p : Node} (above : n.parent? = some p) : Within t p := by
  cases within with
  | root => cases above
  | child up member =>
      rw [parent?_of_mem_children member] at above
      cases above
      exact up

theorem mem_children_of_parent? (within : Within t n) {p : Node} (above : n.parent? = some p) :
    n ∈ p.children := by
  cases within with
  | root => cases above
  | child up member =>
      rw [parent?_of_mem_children member] at above
      cases above
      exact member

theorem selfAndParents (within : Within t n) : ∀ m ∈ n.selfAndParents, Within t m := by
  obtain ⟨tree, steps⟩ := n
  induction steps generalizing tree with
  | nil =>
      intro m member
      have same : m = ⟨tree, []⟩ := by simpa [Node.selfAndParents, parentsOf] using member
      exact same ▸ within
  | cons step rest ih =>
      intro m member
      rcases List.mem_cons.mp member with rfl | above
      · exact within
      · exact ih step.parent (within.parent rfl) m above

theorem childByField? (within : Within t n) {field : String} {c : Node}
    (found : n.childByField? field = some c) : Within t c :=
  within.child (List.mem_of_find?_eq_some found)

/-- What subtrees inherit holds of every node and of its siblings. -/
theorem siblings_inherit {P : SyntaxTree → Prop}
    (inherits : ∀ parent, P parent → ∀ child ∈ parent.children, P child) (within : Within t n)
    (tree : P t) : ∀ sibling ∈ n.before.reverse ++ n.tree :: n.after, P sibling := by
  induction within with
  | root => simpa [Node.root, Node.before, Node.after] using tree
  | child above member ih =>
      obtain ⟨left, child, right, split, rfl⟩ := mem_children_iff.mp member
      have parent := ih _ (List.mem_append_right _ List.mem_cons_self)
      simp only [Node.before, Node.after, List.head?_cons, Option.map_some, Option.getD_some,
        List.reverse_reverse]
      rw [← split]
      exact inherits _ parent

theorem inherit {P : SyntaxTree → Prop}
    (inherits : ∀ parent, P parent → ∀ child ∈ parent.children, P child) (within : Within t n)
    (tree : P t) : P n.tree :=
  within.siblings_inherit inherits tree n.tree (List.mem_append_right _ List.mem_cons_self)

theorem ordered (within : Within t n) (tree : t.Ordered) : n.tree.Ordered :=
  within.inherit (fun _ parent _ => parent.of_mem_children) tree

/-- The siblings of a node in an ordered tree, the node among them, are ordered trees in order. -/
theorem siblings_ordered (within : Within t n) (tree : t.Ordered) :
    (∀ sibling ∈ n.before.reverse ++ n.tree :: n.after, sibling.Ordered) ∧
      (n.before.reverse ++ n.tree :: n.after).Pairwise
        fun left right => left.label.stop ≤ right.label.start := by
  refine ⟨within.siblings_inherit (fun _ parent _ => parent.of_mem_children) tree, ?_⟩
  cases within with
  | root => simp [Node.root, Node.before, Node.after]
  | child above member =>
      obtain ⟨left, child, right, split, rfl⟩ := mem_children_iff.mp member
      simp only [Node.before, Node.after, List.head?_cons, Option.map_some, Option.getD_some,
        List.reverse_reverse]
      rw [← split]
      exact (above.ordered tree).pairwise_children

/-- Siblings before a node end where it starts, or earlier. -/
theorem stop_le_start_of_mem_before (within : Within t n) (tree : t.Ordered)
    {sibling : SyntaxTree} (member : sibling ∈ n.before) :
    sibling.label.start ≤ sibling.label.stop ∧ sibling.label.stop ≤ n.label.start := by
  obtain ⟨each, apart⟩ := within.siblings_ordered tree
  have extent := (each sibling (by simp [member])).start_le_stop
  have order := (List.pairwise_append.mp apart).2.2 sibling (by simpa using member) n.tree
    List.mem_cons_self
  exact ⟨extent, order⟩

/-- Siblings after a node start where it stops, or later. -/
theorem stop_le_start_of_mem_after (within : Within t n) (tree : t.Ordered)
    {sibling : SyntaxTree} (member : sibling ∈ n.after) :
    n.label.stop ≤ sibling.label.start ∧ sibling.label.start ≤ sibling.label.stop := by
  obtain ⟨each, apart⟩ := within.siblings_ordered tree
  have extent := (each sibling (by simp [member])).start_le_stop
  have onward := (List.pairwise_append.mp apart).2.1
  exact ⟨(List.pairwise_cons.mp onward).1 sibling member, extent⟩

end Within

end Node

end TargetSpans
