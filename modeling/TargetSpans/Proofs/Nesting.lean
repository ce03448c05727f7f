import Mathlib.Data.List.Pairwise
import TargetSpans.Proofs.TreeNodes

/-!
# Nodes over an offset

Where nodes hold their children, the nodes that cover an offset lie one within the other.  If no
node is empty either, the search for the smallest node at the offset ends at the innermost of them,
and the way up from there meets all of them and no other node.
-/

namespace TargetSpans

/-- The bytes that a node covers include the one at an offset. -/
def NodeLabel.Covers (label : NodeLabel) (offset : Nat) : Prop :=
  label.start ≤ offset ∧ offset < label.stop

namespace SyntaxTree

/-- The children of every node lie within it, one after another without overlap. -/
inductive Nested : SyntaxTree → Prop
  | node {label : NodeLabel} {children : List SyntaxTree} (extent : label.start ≤ label.stop)
      (apart : children.Pairwise fun left right => left.label.stop ≤ right.label.start)
      (inside : ∀ child ∈ children,
        label.start ≤ child.label.start ∧ child.label.stop ≤ label.stop)
      (below : ∀ child ∈ children, Nested child) : Nested (.node label children)

/-- No node of a tree is empty. -/
inductive Filled : SyntaxTree → Prop
  | node {label : NodeLabel} {children : List SyntaxTree} (extent : label.start < label.stop)
      (below : ∀ child ∈ children, Filled child) : Filled (.node label children)

variable {t child : SyntaxTree}

theorem Nested.ordered (nested : t.Nested) : t.Ordered := by
  induction nested with
  | node extent apart _ _ ih => exact .node extent apart ih

theorem Nested.of_mem_children (nested : t.Nested) (member : child ∈ t.children) :
    child.Nested := by
  cases nested with
  | node _ _ _ below => exact below child member

theorem Nested.inside (nested : t.Nested) (member : child ∈ t.children) :
    t.label.start ≤ child.label.start ∧ child.label.stop ≤ t.label.stop := by
  cases nested with
  | node _ _ inside _ => exact inside child member

theorem Filled.start_lt_stop (filled : t.Filled) : t.label.start < t.label.stop := by
  cases filled with
  | node extent _ => exact extent

theorem Filled.of_mem_children (filled : t.Filled) (member : child ∈ t.children) :
    child.Filled := by
  cases filled with
  | node _ below => exact below child member

end SyntaxTree

namespace Node

variable {t : SyntaxTree} {n m c : Node} {offset : Nat}

/-! ## Children and the way up -/

theorem map_tree_childrenFrom (parent : SyntaxTree) (steps : List TreeStep)
    (before after : List SyntaxTree) :
    (childrenFrom parent steps before after).map Node.tree = after := by
  induction after generalizing before with
  | nil => rfl
  | cons child rest ih => rw [childrenFrom, List.map_cons, ih]

theorem map_tree_children (n : Node) : n.children.map Node.tree = n.tree.children :=
  map_tree_childrenFrom n.tree n.steps [] n.tree.children

theorem siblings_of_childrenFrom {parent : SyntaxTree} {steps : List TreeStep}
    {left right : List SyntaxTree} {before after : List Node}
    (split : childrenFrom parent steps left right = before ++ c :: after) :
    c.before = (before.map Node.tree).reverse ++ left ∧ c.after = after.map Node.tree := by
  induction right generalizing left before with
  | nil => simp [childrenFrom] at split
  | cons child rest ih =>
      rw [childrenFrom] at split
      cases before with
      | nil =>
          obtain ⟨rfl, onward⟩ := List.cons.inj split
          exact ⟨rfl, by rw [← onward, map_tree_childrenFrom]; rfl⟩
      | cons first before =>
          obtain ⟨rfl, onward⟩ := List.cons.inj split
          obtain ⟨earlier, later⟩ := ih onward
          exact ⟨by simp [earlier], later⟩

/-- The siblings that a child remembers are the children before and after it. -/
theorem siblings_of_children {before after : List Node}
    (split : n.children = before ++ c :: after) :
    c.before = (before.map Node.tree).reverse ∧ c.after = after.map Node.tree := by
  obtain ⟨earlier, later⟩ := siblings_of_childrenFrom split
  exact ⟨by rw [earlier, List.append_nil], later⟩

theorem tree_mem_of_mem_children (member : c ∈ n.children) : c.tree ∈ n.tree.children := by
  rw [← map_tree_children]
  exact List.mem_map_of_mem member

theorem selfAndParents_of_mem_children (member : c ∈ n.children) :
    c.selfAndParents = c :: n.selfAndParents := by
  obtain ⟨left, child, right, _, rfl⟩ := mem_children_iff.mp member
  rfl

/-- The way up that starts further up is the rest of the way. -/
theorem selfAndParents_of_append {before after : List Node}
    (split : m.selfAndParents = before ++ n :: after) : n.selfAndParents = n :: after := by
  obtain ⟨tree, steps⟩ := m
  induction before generalizing tree steps with
  | nil =>
      obtain ⟨rfl, rfl⟩ := List.cons.inj split
      rfl
  | cons first before ih =>
      obtain ⟨_, above⟩ := List.cons.inj split
      cases steps with
      | nil => simp [parentsOf] at above
      | cons step rest => exact ih step.parent rest above

namespace Within

theorem children_apart (within : Within t n) (ordered : t.Ordered) :
    n.children.Pairwise fun left right => left.label.stop ≤ right.label.start := by
  have apart := (within.ordered ordered).pairwise_children
  rw [← map_tree_children] at apart
  exact List.pairwise_map.mp apart

theorem nested (within : Within t n) (tree : t.Nested) : n.tree.Nested :=
  within.inherit (fun _ parent _ => parent.of_mem_children) tree

theorem root_mem_selfAndParents (within : Within t n) : Node.root t ∈ n.selfAndParents := by
  induction within with
  | root => exact List.mem_cons_self
  | child above member ih =>
      rw [selfAndParents_of_mem_children member]
      exact List.mem_cons_of_mem _ ih

/-- On the way up, every node but the first is reached from one of its children. -/
theorem child_of_mem_selfAndParents (within : Within t m) (member : n ∈ m.selfAndParents) :
    n = m ∨ ∃ c ∈ m.selfAndParents, c ∈ n.children := by
  induction within with
  | root => exact Or.inl (List.mem_singleton.mp member)
  | child above childMember ih =>
      rw [selfAndParents_of_mem_children childMember] at member ⊢
      rcases List.mem_cons.mp member with rfl | further
      · exact Or.inl rfl
      · right
        rcases ih further with rfl | ⟨c, onWay, isChild⟩
        · exact ⟨_, List.mem_cons_self, childMember⟩
        · exact ⟨c, List.mem_cons_of_mem _ onWay, isChild⟩

/-- The nodes on the way up lie around the first one. -/
theorem extent_of_mem_selfAndParents (within : Within t m) (tree : t.Nested)
    (member : n ∈ m.selfAndParents) :
    n.label.start ≤ m.label.start ∧ m.label.stop ≤ n.label.stop := by
  induction within with
  | root =>
      obtain rfl := List.mem_singleton.mp member
      exact ⟨Nat.le_refl _, Nat.le_refl _⟩
  | @child p c above childMember ih =>
      rw [selfAndParents_of_mem_children childMember] at member
      rcases List.mem_cons.mp member with rfl | further
      · exact ⟨Nat.le_refl _, Nat.le_refl _⟩
      · have around := ih further
        have inParent : p.label.start ≤ c.label.start ∧ c.label.stop ≤ p.label.stop :=
          (above.nested tree).inside (tree_mem_of_mem_children childMember)
        omega

/-- At most one child of a node covers an offset. -/
theorem eq_of_covers (within : Within t n) (ordered : t.Ordered) {left right : Node}
    (leftMember : left ∈ n.children) (rightMember : right ∈ n.children)
    (leftCovers : left.label.Covers offset) (rightCovers : right.label.Covers offset) :
    left = right := by
  have apart : n.children.Pairwise fun a b =>
      a.label.Covers offset → b.label.Covers offset → a = b := by
    refine (within.children_apart ordered).imp fun order first second => ?_
    have late := second.1
    have early := first.2
    omega
  have symmetric : Std.Symm fun a b : Node =>
      a.label.Covers offset → b.label.Covers offset → a = b :=
    ⟨fun _ _ same first second => (same second first).symm⟩
  exact apart.forall_of_forall (fun _ _ _ _ => rfl) leftMember rightMember leftCovers rightCovers

end Within

/-! ## The search for the smallest node -/

theorem stop_le_of_endsBefore {label : NodeLabel} (before : endsBefore label offset = true) :
    label.stop ≤ offset := by
  simp only [endsBefore, Bool.or_eq_true, Bool.and_eq_true, decide_eq_true_eq] at before
  omega

theorem lt_stop_of_not_endsBefore {label : NodeLabel} (filled : label.start < label.stop)
    (reached : ¬ endsBefore label offset = true) : offset < label.stop := by
  simp only [endsBefore, Bool.or_eq_true, Bool.and_eq_true, decide_eq_true_eq, not_or,
    not_and] at reached
  have other := reached.2 (Nat.ne_of_lt filled)
  omega

/-- From a tree that covers an offset the way down ends at a node that covers it and has no child
that does.  The children that have been passed over end before the offset. -/
theorem covers_descendFrom (offset : Nat) (steps : List TreeStep) (tree : SyntaxTree) :
    tree.Nested → tree.Filled → tree.label.Covers offset →
      (descendFrom offset steps tree).label.Covers offset ∧
        ∀ child ∈ (descendFrom offset steps tree).tree.children, ¬ child.label.Covers offset := by
  -- The induction is on the two functions of the way down at once; the one that goes through the
  -- children of a node carries what is known of those behind it.
  refine descendFrom.induct offset
    (fun steps tree => tree.Nested → tree.Filled → tree.label.Covers offset →
      (descendFrom offset steps tree).label.Covers offset ∧
        ∀ child ∈ (descendFrom offset steps tree).tree.children, ¬ child.label.Covers offset)
    (fun label children steps before after => children = before.reverse ++ after →
      (SyntaxTree.node label children).Nested → (SyntaxTree.node label children).Filled →
      label.Covers offset → (∀ child ∈ before, child.label.stop ≤ offset) →
      (descendIntoFrom offset label children steps before after).label.Covers offset ∧
        ∀ child ∈ (descendIntoFrom offset label children steps before after).tree.children,
          ¬ child.label.Covers offset)
    ?_ ?_ ?_ ?_ ?_ steps tree
  case refine_1 =>
    intro steps label children into nested filled covers
    rw [descendFrom]
    exact into rfl nested filled covers (by simp)
  case refine_2 =>
    intro label children steps before split nested filled covers passed
    rw [descendIntoFrom]
    refine ⟨covers, fun child member childCovers => ?_⟩
    have isPassed : child ∈ before := by
      rw [split] at member
      simpa [SyntaxTree.children] using member
    exact absurd childCovers.2 (Nat.not_lt_of_le (passed child isPassed))
  case refine_3 =>
    intro label children steps before child after ends ih split nested filled covers passed
    rw [descendIntoFrom, if_pos ends]
    refine ih (by simp [split]) nested filled covers fun other member => ?_
    rcases List.mem_cons.mp member with rfl | earlier
    · exact stop_le_of_endsBefore ends
    · exact passed other earlier
  case refine_4 =>
    -- The offset lies in a gap: the children ahead start after it, as the nearest of them does.
    intro label children steps before child after reached gap split nested filled covers passed
    rw [descendIntoFrom, if_neg reached, if_pos gap]
    refine ⟨covers, fun other member otherCovers => ?_⟩
    have apart := nested.ordered.pairwise_children
    have onward : ∀ later ∈ after, child.label.stop ≤ later.label.start := by
      have all : children.Pairwise fun left right => left.label.stop ≤ right.label.start := apart
      rw [split] at all
      exact (List.pairwise_cons.mp (List.pairwise_append.mp all).2.1).1
    have childMember : child ∈ (SyntaxTree.node label children).children := by
      simp [SyntaxTree.children, split]
    have extent := (filled.of_mem_children childMember).start_lt_stop
    have here : other ∈ before.reverse ++ child :: after := split ▸ member
    rcases List.mem_append.mp here with earlier | later
    · exact absurd otherCovers.2 (Nat.not_lt_of_le (passed other (List.mem_reverse.mp earlier)))
    · have first := otherCovers.1
      rcases List.mem_cons.mp later with rfl | behind
      · omega
      · have order := onward other behind
        omega
  case refine_5 =>
    intro label children steps before child after reached inside ih split nested filled covers
      passed
    rw [descendIntoFrom, if_neg reached, if_neg inside]
    have member : child ∈ (SyntaxTree.node label children).children := by
      simp [SyntaxTree.children, split]
    have childFilled := filled.of_mem_children member
    exact ih (nested.of_mem_children member) childFilled
      ⟨Nat.le_of_not_lt inside, lt_stop_of_not_endsBefore childFilled.start_lt_stop reached⟩

/-- The nodes that cover an offset are those on the way up from the smallest node at it. -/
theorem covers_iff_mem_selfAndParents (nested : t.Nested) (filled : t.Filled)
    (inside : t.label.Covers offset) (within : Within t n) :
    n.label.Covers offset ↔ n ∈ (atOffset t offset).selfAndParents := by
  have smallest := within_atOffset t offset
  obtain ⟨covers, noChild⟩ := covers_descendFrom offset [] t nested filled inside
  have around : ∀ m ∈ (atOffset t offset).selfAndParents, m.label.Covers offset := by
    intro m member
    have extent := smallest.extent_of_mem_selfAndParents nested member
    exact ⟨Nat.le_trans extent.1 covers.1, Nat.lt_of_lt_of_le covers.2 extent.2⟩
  refine ⟨fun nodeCovers => ?_, around n⟩
  induction within with
  | root => exact smallest.root_mem_selfAndParents
  | @child p c above member ih =>
      have inParent := (above.nested nested).inside (tree_mem_of_mem_children member)
      have parentOnWay := ih
        ⟨Nat.le_trans inParent.1 nodeCovers.1, Nat.lt_of_lt_of_le nodeCovers.2 inParent.2⟩
      rcases smallest.child_of_mem_selfAndParents parentOnWay with rfl | ⟨other, onWay, isChild⟩
      · exact absurd nodeCovers (noChild _ (tree_mem_of_mem_children member))
      · obtain rfl := above.eq_of_covers nested.ordered member isChild nodeCovers
          (around other onWay)
        exact onWay

end Node

end TargetSpans
