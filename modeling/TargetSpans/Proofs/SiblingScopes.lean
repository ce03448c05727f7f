import TargetSpans.Proofs.InnermostScope
import TargetSpans.Proofs.Reserved
import TargetSpans.Proofs.TokenDelimiters

/-!
# Scopes side by side

Asking for siblings gives the matches of all children of one node.  Which ones they are depends on
that node alone, so every mark within one of the scopes leads to the same list.  Since children lie
apart, so do their scopes, a field within a child included; and two scopes with one delimiter
between them agree on its range, although each of them looks for it from its own side.
-/

namespace TargetSpans

namespace NodeMatcher

open ScopeMatcher (findAll)

variable {m : NodeMatcher} {d : Document} {t : SyntaxTree} {n left right : Node}
  {found a b : ScopeMatch}

/-- The node of a scope lies within the node that matches. -/
theorem extent_of_scopeNode? {scope : Node} (within : Node.Within t n) (nested : t.Nested)
    (narrowed : m.scopeNode? n = some scope) :
    n.label.start ≤ scope.label.start ∧ scope.label.stop ≤ n.label.stop := by
  unfold scopeNode? at narrowed
  split at narrowed
  case h_1 =>
    cases narrowed
    exact ⟨Nat.le_refl _, Nat.le_refl _⟩
  case h_2 field _ =>
    have member : scope ∈ n.children := List.mem_of_find?_eq_some narrowed
    exact (within.nested nested).inside (Node.tree_mem_of_mem_children member)

/-- Where nodes lie apart, their scopes do. -/
theorem find_apart (leftWithin : Node.Within t left) (rightWithin : Node.Within t right)
    (nested : t.Nested) (apart : left.label.stop ≤ right.label.start)
    (leftFound : m.find d left = .ok (some a)) (rightFound : m.find d right = .ok (some b)) :
    a.range.stop ≤ b.range.start := by
  obtain ⟨first, source⟩ := exists_scopeFrom leftFound
  obtain ⟨second, target⟩ := exists_scopeFrom rightFound
  have firstWithin := within_scopeNode? leftWithin source.narrowed
  have secondWithin := within_scopeNode? rightWithin target.narrowed
  have leftExtent := extent_of_scopeNode? leftWithin nested source.narrowed
  have rightExtent := extent_of_scopeNode? rightWithin nested target.narrowed
  calc
    a.range.stop = d.positionOfByte first.label.stop := by
      rw [source.range, Node.stop_range firstWithin nested.ordered]
    _ ≤ d.positionOfByte second.label.start := Document.positionOfByte_mono (by omega)
    _ = b.range.start := by
      rw [target.range, Node.start_range secondWithin nested.ordered]

theorem exists_findAll (m : NodeMatcher) (d : Document) (nodes : List Node) :
    ∃ scopes, findAll m d nodes = .ok scopes := by
  obtain ⟨results, each⟩ :=
    Answer.exists_mapM_eq_ok_iff.mpr fun n (_ : n ∈ nodes) => m.exists_find d n
  exact ⟨results.filterMap id, Answer.bind_eq_ok_iff.mpr ⟨results, each, rfl⟩⟩

/-- The scopes of some nodes are in the order of the nodes. -/
theorem pairwise_of_findAll {R : ScopeMatch → ScopeMatch → Prop} {nodes : List Node}
    {scopes : List ScopeMatch} (all : findAll m d nodes = .ok scopes)
    (pairs : nodes.Pairwise fun left right => ∀ a b, m.find d left = .ok (some a) →
      m.find d right = .ok (some b) → R a b) : scopes.Pairwise R := by
  obtain ⟨results, each, equal⟩ := Answer.bind_eq_ok_iff.mp all
  cases equal
  apply List.pairwise_filterMap.mpr
  have related := Answer.mapM_eq_ok_iff.mp each
  clear all each
  -- A result further on comes from a node further on, whose pair with the first one is known.
  induction related with
  | nil => exact List.Pairwise.nil
  | @cons left result rest results here tail ih =>
      obtain ⟨first, onward⟩ := List.pairwise_cons.mp pairs
      refine List.pairwise_cons.mpr ⟨fun other member a isA b isB => ?_, ih onward⟩
      obtain ⟨right, rightMember, there⟩ := Answer.exists_mem_of_forall₂ tail member
      cases isA
      cases isB
      exact first right rightMember a b here there

/-- The list of the scopes of the children of a node, one after another without overlap. -/
structure SiblingScopes (m : NodeMatcher) (d : Document) (parent : Node)
    (scopes : List ScopeMatch) : Prop where
  mem_iff : ∀ found, found ∈ scopes ↔ ∃ n ∈ parent.children, m.find d n = .ok (some found)
  apart : scopes.Pairwise fun a b => a.range.stop ≤ b.range.start

theorem siblingScopes_of_findAll {parent : Node} {scopes : List ScopeMatch}
    (within : Node.Within t parent) (nested : t.Nested)
    (all : findAll m d parent.children = .ok scopes) : m.SiblingScopes d parent scopes := by
  constructor
  · intro found
    constructor
    · intro member
      obtain ⟨results, each, equal⟩ := Answer.bind_eq_ok_iff.mp all
      cases equal
      obtain ⟨_, inResults, rfl⟩ := List.mem_filterMap.mp member
      exact Answer.exists_mem_of_forall₂ (Answer.mapM_eq_ok_iff.mp each) inResults
    · rintro ⟨n, member, here⟩
      exact ScopeMatcher.mem_of_findAll all member here
  · apply pairwise_of_findAll all
    refine (within.children_apart nested.ordered).imp_of_mem ?_
    intro left right leftMember rightMember apart a b
    exact find_apart (within.child leftMember) (within.child rightMember) nested apart

end NodeMatcher

namespace Node

variable {d : Document} {p left separator right : Node} {before after : List Node}
  {delimiter : String}

/-- A node between two named ones that is of the kind of a delimiter delimits both of them, from
the stop of the first to the start of the second. -/
theorem delimiter_between (split : p.children = before ++ left :: separator :: right :: after)
    (leftNamed : left.label.named = true) (rightNamed : right.label.named = true)
    (kind : separator.label.kind = delimiter) :
    left.trailingDelimiter? d delimiter =
        some ⟨d.positionOfByte left.label.stop, d.positionOfByte right.label.start⟩ ∧
      right.leadingDelimiter? d delimiter =
        some ⟨d.positionOfByte left.label.stop, d.positionOfByte right.label.start⟩ := by
  have afterLeft : left.after = separator.tree :: right.tree :: after.map Node.tree :=
    (siblings_of_children split).2
  have beforeRight : right.before =
      separator.tree :: left.tree :: (before.map Node.tree).reverse := by
    have shifted : p.children = (before ++ [left, separator]) ++ right :: after := by simp [split]
    rw [(siblings_of_children shifted).1]
    simp
  have kindOfTree : separator.tree.label.kind = delimiter := kind
  have leftTreeNamed : left.tree.label.named = true := leftNamed
  have rightTreeNamed : right.tree.label.named = true := rightNamed
  constructor
  · simp only [trailingDelimiter?, afterLeft, kindOfTree, List.head?_cons, rightTreeNamed, if_true]
    rfl
  · simp only [leadingDelimiter?, beforeRight, kindOfTree, List.head?_cons, leftTreeNamed, if_true]
    rfl

end Node

namespace NodeMatcher

variable {m : NodeMatcher} {d : Document} {n : Node} {delimiter : String}

/-- An accepted node is its own scope if the matcher has no field, and with a delimiter the scope
comes with the delimiters of the node. -/
theorem exists_find_of_accepts (whole : m.field = none) (delimited : m.delimiter = some delimiter)
    (accepted : m.accepts n = true) :
    ∃ found, m.find d n = .ok (some found) ∧ found.range = n.range d ∧
      found.context.leading = n.leadingDelimiter? d delimiter ∧
      found.context.trailing = n.trailingDelimiter? d delimiter := by
  obtain ⟨c, context, _, _, leading, trailing, _⟩ := n.exists_siblingContext d delimiter
  refine ⟨⟨n.range d, c⟩, ?_, rfl, leading, trailing⟩
  simp only [find, accepted, scopeNode?, whole, delimited, context, if_true]
  rfl

end NodeMatcher

namespace Workspace

variable {w : Workspace} {d : Document} {s : Span} {kind : ScopeKind} {m : NodeMatcher}

theorem parts_siblings_of_scopeAt (matcher : w.matcher d.language kind = .ok m) {n p : Node}
    {found : ScopeMatch} {scopes : List ScopeMatch} (scope : w.ScopeAt m d s.range n found)
    (above : n.parent? = some p) (all : ScopeMatcher.findAll m d p.children = .ok scopes) :
    w.parts (.containingScope kind true) d s = .ok (scopes.map fun f => f.part s.doc) := by
  obtain ⟨start, smallest, first⟩ := scope
  simp only [parts, scopesAround, matcher, smallest, bind, Except.bind, first, above, if_true, all]
  rfl

/-- Asking for siblings gives the scopes of all children of one node, the scope that is found
without asking for them among these, in document order and apart from each other.  The list depends
on that node alone.  Two of them with one delimiter between them share it. -/
theorem parts_containingScope_siblings (w : Workspace) (d : Document) (kind : ScopeKind)
    {m : NodeMatcher} (matcher : w.matcher d.language kind = .ok m) {t : SyntaxTree}
    (tree : w.trees.get? d.id = some t) (nested : t.Nested) :
    (∀ p, ∃ scopes, ∀ s n found, w.ScopeAt m d s.range n found → n.parent? = some p →
      m.SiblingScopes d p scopes ∧ found ∈ scopes ∧
        w.parts (.containingScope kind false) d s = .ok [found.part s.doc] ∧
        w.parts (.containingScope kind true) d s = .ok (scopes.map fun f => f.part s.doc)) ∧
    (m.field = none → ∀ delimiter, m.delimiter = some delimiter →
      ∀ p before left separator right after, Node.Within t p →
        p.children = before ++ left :: separator :: right :: after →
        separator.label.kind = delimiter →
        m.accepts left = true → left.label.named = true →
        m.accepts right = true → right.label.named = true →
        ∃ a b, m.find d left = .ok (some a) ∧ a.range = left.range d ∧
          m.find d right = .ok (some b) ∧ b.range = right.range d ∧
          a.context.trailing = some ⟨a.range.stop, b.range.start⟩ ∧
          b.context.leading = some ⟨a.range.stop, b.range.start⟩) := by
  constructor
  · intro p
    obtain ⟨scopes, all⟩ := m.exists_findAll d p.children
    refine ⟨scopes, fun s n found scope above => ?_⟩
    obtain ⟨start, smallest, first⟩ := scope
    have way : Node.Within t start := by
      rw [nodeAt?_eq, tree] at smallest
      cases smallest
      exact Node.within_atOffset t _
    obtain ⟨member, here⟩ := ScopeMatcher.find_of_findFirst first
    have within := way.selfAndParents n member
    have siblings := NodeMatcher.siblingScopes_of_findAll (within.parent above) nested all
    refine ⟨siblings, ?_, parts_of_scopeAt matcher ⟨start, smallest, first⟩,
      parts_siblings_of_scopeAt matcher ⟨start, smallest, first⟩ above all⟩
    exact (siblings.mem_iff found).mpr ⟨n, within.mem_children_of_parent? above, here⟩
  · intro whole delimiter delimited p before left separator right after within split kind
      leftAccepted leftNamed rightAccepted rightNamed
    obtain ⟨a, leftFound, leftRange, _, trailing⟩ :=
      NodeMatcher.exists_find_of_accepts (d := d) whole delimited leftAccepted
    obtain ⟨b, rightFound, rightRange, leading, _⟩ :=
      NodeMatcher.exists_find_of_accepts (d := d) whole delimited rightAccepted
    have leftWithin : Node.Within t left := within.child (by simp [split])
    have rightWithin : Node.Within t right := within.child (by simp [split])
    obtain ⟨afterLeft, beforeRight⟩ := Node.delimiter_between split leftNamed rightNamed kind
    refine ⟨a, b, leftFound, leftRange, rightFound, rightRange, ?_, ?_⟩
    · rw [trailing, afterLeft, leftRange, rightRange, Node.stop_range leftWithin nested.ordered,
        Node.start_range rightWithin nested.ordered]
    · rw [leading, beforeRight, leftRange, rightRange, Node.stop_range leftWithin nested.ordered,
        Node.start_range rightWithin nested.ordered]

theorem nested_argumentsTree : argumentsTree.Nested := by
  have leaf : ∀ label : NodeLabel, label.start ≤ label.stop →
      (SyntaxTree.node label []).Nested :=
    fun label extent => SyntaxTree.Nested.node extent List.Pairwise.nil (by simp) (by simp)
  apply SyntaxTree.Nested.node (by decide) (by simp [SyntaxTree.label])
    (by simp [SyntaxTree.label])
  intro child member
  simp only [List.mem_cons, List.not_mem_nil, or_false] at member
  rcases member with rfl | rfl | rfl
  all_goals exact leaf _ (by decide)

/-- Both arguments of `a, b` are found from either of them, and they share the comma with the space
after it. -/
theorem arguments_share_comma :
    ∃ (scopes : List ScopeMatch) (a b : ScopeMatch),
      (∀ col ∈ [0, 3], arguments.parts (.containingScope .argumentOrParameter true)
        ⟨⟨1⟩, "call", ['a', ',', ' ', 'b']⟩ ⟨⟨1⟩, .point ⟨0, col⟩⟩ =
          .ok (scopes.map fun found => found.part ⟨1⟩)) ∧
      a ∈ scopes ∧ b ∈ scopes ∧ a.context.trailing = some ⟨⟨0, 1⟩, ⟨0, 3⟩⟩ ∧
        b.context.leading = some ⟨⟨0, 1⟩, ⟨0, 3⟩⟩ := by
  obtain ⟨listed, shared⟩ := parts_containingScope_siblings arguments
    ⟨⟨1⟩, "call", ['a', ',', ' ', 'b']⟩ .argumentOrParameter rfl rfl nested_argumentsTree
  obtain ⟨scopes, list⟩ := listed (Node.root argumentsTree)
  obtain ⟨a, b, first, rangeA, second, rangeB, trailing, leading⟩ :=
    shared rfl "," rfl (Node.root argumentsTree) [] _ _ _ [] .root rfl rfl rfl rfl rfl rfl
  have fromFirst := list ⟨⟨1⟩, .point ⟨0, 0⟩⟩ _ _ ⟨_, rfl, rfl⟩ rfl
  have fromSecond := list ⟨⟨1⟩, .point ⟨0, 3⟩⟩ _ _ ⟨_, rfl, rfl⟩ rfl
  rw [rangeA, rangeB] at trailing leading
  refine ⟨scopes, a, b, ?_, ?_, ?_, trailing, leading⟩
  · simp only [List.forall_mem_cons]
    exact ⟨fromFirst.2.2.2, fromSecond.2.2.2, by simp⟩
  · exact (fromFirst.1.mem_iff a).mpr
      ⟨_, Node.mem_children_iff.mpr ⟨[], _, _, rfl, rfl⟩, first⟩
  · exact (fromFirst.1.mem_iff b).mpr
      ⟨_, Node.mem_children_iff.mpr ⟨[_, _], _, [], rfl, rfl⟩, second⟩

end Workspace

end TargetSpans
