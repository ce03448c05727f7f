import TargetSpans.Document

/-!
# Syntax trees and their nodes

A syntax tree gives the structure of a source text: every node has a kind and covers a stretch of
bytes.  A `Node` is a place in a tree.  It remembers the way from the root, so that its parent and
its neighbours can be asked for.  The offsets of a tree may be those of an older text; nothing here
relies on their order.
-/

namespace TargetSpans

/-- What a tree says of one node: its kind, whether it is named or mere punctuation, the field that
it fills in its parent, and the bytes that it covers. -/
structure NodeLabel where
  kind : String
  named : Bool
  field : Option String
  start : Nat
  stop : Nat
  deriving DecidableEq, Repr

inductive SyntaxTree where
  | node (label : NodeLabel) (children : List SyntaxTree)
  deriving Repr

namespace SyntaxTree

def label : SyntaxTree → NodeLabel
  | node label _ => label

/-- The subtrees right below the root. -/
def children : SyntaxTree → List SyntaxTree
  | node _ children => children

end SyntaxTree

/-- One step down in a tree: the tree stepped down from, and the siblings left of the step, nearest
first, and right of it. -/
structure TreeStep where
  parent : SyntaxTree
  before : List SyntaxTree
  after : List SyntaxTree

/-- A node of a tree: the subtree below it and the steps that lead to it, the last one first. -/
structure Node where
  tree : SyntaxTree
  steps : List TreeStep

namespace Node

def root (t : SyntaxTree) : Node := ⟨t, []⟩

def label (n : Node) : NodeLabel := n.tree.label

def parent? (n : Node) : Option Node :=
  match n.steps with
  | [] => none
  | step :: rest => some ⟨step.parent, rest⟩

/-- The siblings before a node, nearest first. -/
def before (n : Node) : List SyntaxTree := (n.steps.head?.map TreeStep.before).getD []

/-- The siblings after a node. -/
def after (n : Node) : List SyntaxTree := (n.steps.head?.map TreeStep.after).getD []

/-- The nodes for the subtrees `after` of a tree, when the subtrees `before` come before them. -/
def childrenFrom (parent : SyntaxTree) (steps : List TreeStep) (before : List SyntaxTree) :
    List SyntaxTree → List Node
  | [] => []
  | child :: after =>
      ⟨child, ⟨parent, before, after⟩ :: steps⟩ ::
        childrenFrom parent steps (child :: before) after

def children (n : Node) : List Node := childrenFrom n.tree n.steps [] n.tree.children

def childByField? (n : Node) (field : String) : Option Node :=
  n.children.find? fun child => child.label.field = some field

/-- The nodes for a chain of steps: their parents, the innermost first. -/
def parentsOf : List TreeStep → List Node
  | [] => []
  | step :: rest => ⟨step.parent, rest⟩ :: parentsOf rest

/-- The node itself and all nodes above it, the innermost first. -/
def selfAndParents (n : Node) : List Node := n :: parentsOf n.steps

mutual

/-- All nodes of a tree in preorder, when the given steps lead to it. -/
def allFrom (steps : List TreeStep) : SyntaxTree → List Node
  | .node label children =>
      ⟨.node label children, steps⟩ ::
        allChildrenFrom (.node label children) steps [] children

/-- All nodes of the subtrees `after` of a tree in preorder, when the subtrees `before` come before
them. -/
def allChildrenFrom (parent : SyntaxTree) (steps : List TreeStep) (before : List SyntaxTree) :
    List SyntaxTree → List Node
  | [] => []
  | child :: after =>
      allFrom (⟨parent, before, after⟩ :: steps) child ++
        allChildrenFrom parent steps (child :: before) after

end

/-- All nodes of a tree in preorder. -/
def all (t : SyntaxTree) : List Node := allFrom [] t

/-- Whether a subtree ends before an offset.  An empty subtree that lies at the offset does not. -/
def endsBefore (label : NodeLabel) (offset : Nat) : Bool :=
  label.stop < offset || (label.start ≠ label.stop && label.stop = offset)

mutual

/-- The smallest node at an offset within a tree, when the given steps lead to it. -/
def descendFrom (offset : Nat) (steps : List TreeStep) : SyntaxTree → Node
  | .node label children => descendIntoFrom offset label children steps [] children

/-- The smallest node at an offset within the node of `label` and `children`, of which the subtrees
`before` have been passed over.  The first subtree that does not end before the offset decides. -/
def descendIntoFrom (offset : Nat) (label : NodeLabel) (children : List SyntaxTree)
    (steps : List TreeStep) (before : List SyntaxTree) : List SyntaxTree → Node
  | [] => ⟨.node label children, steps⟩
  | child :: after =>
      if endsBefore child.label offset then
        descendIntoFrom offset label children steps (child :: before) after
      else if offset < child.label.start then ⟨.node label children, steps⟩
      else descendFrom offset (⟨.node label children, before, after⟩ :: steps) child

end

/-- The smallest node of a tree at a byte offset; the root covers every offset. -/
def atOffset (t : SyntaxTree) (offset : Nat) : Node := descendFrom offset [] t

/-- The nodes of a tree: its root and the children of its nodes. -/
inductive Within (t : SyntaxTree) : Node → Prop
  | root : Within t (Node.root t)
  | child {n c : Node} (above : Within t n) (member : c ∈ n.children) : Within t c

theorem mem_childrenFrom_iff {parent : SyntaxTree} {steps : List TreeStep}
    {before after : List SyntaxTree} {c : Node} :
    c ∈ childrenFrom parent steps before after ↔
      ∃ left child right, after = left ++ child :: right ∧
        c = ⟨child, ⟨parent, left.reverse ++ before, right⟩ :: steps⟩ := by
  induction after generalizing before with
  | nil => simp [childrenFrom]
  | cons first rest ih =>
      rw [childrenFrom, List.mem_cons, ih]
      constructor
      · rintro (rfl | ⟨left, child, right, rfl, rfl⟩)
        · exact ⟨[], first, rest, rfl, rfl⟩
        · exact ⟨first :: left, child, right, rfl, by simp⟩
      · rintro ⟨left, child, right, split, rfl⟩
        cases left with
        | nil =>
            obtain ⟨rfl, rfl⟩ := List.cons.inj split
            exact Or.inl rfl
        | cons head left =>
            obtain ⟨rfl, rfl⟩ := List.cons.inj split
            exact Or.inr ⟨left, child, right, rfl, by simp⟩

/-- The children of a node, each with the siblings on both sides of it. -/
theorem mem_children_iff {n c : Node} :
    c ∈ n.children ↔
      ∃ left child right, n.tree.children = left ++ child :: right ∧
        c = ⟨child, ⟨n.tree, left.reverse, right⟩ :: n.steps⟩ := by
  rw [children, mem_childrenFrom_iff]
  simp only [List.append_nil]

/-- The way down to an offset stays in the tree.  While the children of a node are passed over, the
ones before and after the current one are together all of its children. -/
theorem within_descendFrom {t : SyntaxTree} (offset : Nat) (steps : List TreeStep)
    (tree : SyntaxTree) :
    Within t ⟨tree, steps⟩ → Within t (descendFrom offset steps tree) := by
  refine descendFrom.induct offset
    (fun steps tree => Within t ⟨tree, steps⟩ → Within t (descendFrom offset steps tree))
    (fun label children steps before after => children = before.reverse ++ after →
      Within t ⟨.node label children, steps⟩ →
        Within t (descendIntoFrom offset label children steps before after))
    ?_ ?_ ?_ ?_ ?_ steps tree
  case refine_1 =>
    intro steps label children into within
    rw [descendFrom]
    exact into rfl within
  case refine_2 =>
    intro label children steps before split within
    rw [descendIntoFrom]
    exact within
  case refine_3 =>
    intro label children steps before child after passed ih split within
    rw [descendIntoFrom, if_pos passed]
    exact ih (by simp [split]) within
  case refine_4 =>
    intro label children steps before child after reached gap split within
    rw [descendIntoFrom, if_neg reached, if_pos gap]
    exact within
  case refine_5 =>
    intro label children steps before child after reached inside ih split within
    rw [descendIntoFrom, if_neg reached, if_neg inside]
    apply ih
    apply within.child
    exact mem_children_iff.mpr ⟨before.reverse, child, after, split, by simp⟩

theorem within_atOffset (t : SyntaxTree) (offset : Nat) : Within t (atOffset t offset) :=
  within_descendFrom offset [] t Within.root

def range (n : Node) (d : Document) : Range :=
  ⟨d.positionOfByte n.label.start, d.positionOfByte n.label.stop⟩

end Node

end TargetSpans
