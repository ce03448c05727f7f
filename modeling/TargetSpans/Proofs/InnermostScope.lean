import TargetSpans.Proofs.Nesting
import TargetSpans.Proofs.Stages

/-!
# The innermost scope

The search for a scope goes from the smallest node at a position outward and takes the first node
that matches.  In a tree whose nodes hold their children and are not empty this is the smallest of
all matching nodes that cover the position, not only of those that the search has met: the others
do not cover it.
-/

namespace TargetSpans

namespace SyntaxTree

/-- The bounds of all nodes of a tree are offsets of characters in a text, or its end. -/
inductive Fits (text : Text) : SyntaxTree → Prop
  | node {label : NodeLabel} {children : List SyntaxTree}
      (start : ∃ index ≤ text.length, label.start = text.byteOffset index)
      (stop : ∃ index ≤ text.length, label.stop = text.byteOffset index)
      (below : ∀ child ∈ children, Fits text child) : Fits text (.node label children)

variable {t child : SyntaxTree} {text : Text}

theorem Fits.of_mem_children (fits : t.Fits text) (member : child ∈ t.children) :
    child.Fits text := by
  cases fits with
  | node _ _ below => exact below child member

theorem Fits.exists_stop (fits : t.Fits text) :
    ∃ index ≤ text.length, t.label.stop = text.byteOffset index := by
  cases fits with
  | node _ stop _ => exact stop

end SyntaxTree

/-- The part that a scope of a document stands for. -/
def ScopeMatch.part (found : ScopeMatch) (doc : DocumentId) : Part :=
  ⟨⟨doc, found.range⟩, found.context⟩

namespace NodeMatcher

open ScopeMatcher (findFirst)

variable {m : NodeMatcher} {d : Document} {t : SyntaxTree} {n : Node} {found : ScopeMatch}

/-- A matcher has an answer for every node. -/
theorem exists_find (m : NodeMatcher) (d : Document) (n : Node) :
    ∃ result, m.find d n = .ok result := by
  unfold find
  split
  case isFalse => exact ⟨none, rfl⟩
  case isTrue =>
    split
    case h_1 => exact ⟨none, rfl⟩
    case h_2 scope _ =>
      cases m.delimiter with
      | none => exact ⟨_, rfl⟩
      | some delimiter =>
          obtain ⟨c, context, _⟩ := scope.exists_siblingContext d delimiter
          simp only [context]
          exact ⟨_, rfl⟩

/-- A search along some nodes ends at the first one that matches, if there is one. -/
theorem findFirst_cases (m : NodeMatcher) (d : Document) (nodes : List Node) :
    (∃ before n after found, nodes = before ++ n :: after ∧
        (∀ other ∈ before, m.find d other = .ok none) ∧ m.find d n = .ok (some found) ∧
        findFirst m d nodes = .ok (some (n, found))) ∨
      (∀ n ∈ nodes, m.find d n = .ok none) ∧ findFirst m d nodes = .ok none := by
  induction nodes with
  | nil => exact Or.inr ⟨by simp, rfl⟩
  | cons head rest ih =>
      obtain ⟨result, here⟩ := m.exists_find d head
      cases result with
      | some found =>
          left
          refine ⟨[], head, rest, found, rfl, by simp, here, ?_⟩
          rw [findFirst, find_eq, here]
          rfl
      | none =>
          have onward : findFirst m d (head :: rest) = findFirst m d rest := by
            rw [findFirst, find_eq, here]
            rfl
          rw [onward]
          refine ih.imp ?_ fun ⟨noneMatches, first⟩ => ⟨?_, first⟩
          · rintro ⟨before, n, after, found, rfl, earlier, there, first⟩
            refine ⟨head :: before, n, after, found, rfl, ?_, there, first⟩
            exact List.forall_mem_cons.mpr ⟨here, earlier⟩
          · exact List.forall_mem_cons.mpr ⟨here, noneMatches⟩

/-- A node is the smallest of all nodes of a tree that cover an offset and match, with its match:
every other one is above it, and around it. -/
structure Innermost (m : NodeMatcher) (d : Document) (t : SyntaxTree) (offset : Nat) (n : Node)
    (found : ScopeMatch) : Prop where
  within : Node.Within t n
  covers : n.label.Covers offset
  find_eq : m.find d n = .ok (some found)
  smallest : ∀ other otherFound, Node.Within t other → other.label.Covers offset →
    m.find d other = .ok (some otherFound) → other ∈ n.selfAndParents ∧
      other.label.start ≤ n.label.start ∧ n.label.stop ≤ other.label.stop

/-- The search from the smallest node at an offset finds the innermost match, unless no node that
covers the offset matches. -/
theorem findFirst_atOffset (m : NodeMatcher) (d : Document) {offset : Nat} (nested : t.Nested)
    (filled : t.Filled) (inside : t.label.Covers offset) :
    (∃ n found, m.Innermost d t offset n found ∧
        findFirst m d (Node.atOffset t offset).selfAndParents = .ok (some (n, found))) ∨
      (∀ n, Node.Within t n → n.label.Covers offset → m.find d n = .ok none) ∧
        findFirst m d (Node.atOffset t offset).selfAndParents = .ok none := by
  have smallestWithin := Node.within_atOffset t offset
  have onWay : ∀ {n}, Node.Within t n →
      (n.label.Covers offset ↔ n ∈ (Node.atOffset t offset).selfAndParents) :=
    fun within => Node.covers_iff_mem_selfAndParents nested filled inside within
  rcases m.findFirst_cases d (Node.atOffset t offset).selfAndParents with
    ⟨before, n, after, found, split, earlier, here, first⟩ | ⟨noneMatches, first⟩
  · left
    have member : n ∈ (Node.atOffset t offset).selfAndParents := by simp [split]
    have within := smallestWithin.selfAndParents n member
    refine ⟨n, found, ⟨within, (onWay within).mpr member, here, ?_⟩, first⟩
    intro other otherFound otherWithin otherCovers there
    -- All nodes that cover the offset are on the way up, and those before `n` do not match.
    have notBefore : other ∉ before := by
      intro passed
      cases there.symm.trans (earlier other passed)
    have above : other ∈ n.selfAndParents := by
      have met := (onWay otherWithin).mp otherCovers
      rw [split] at met
      rw [Node.selfAndParents_of_append split]
      exact (List.mem_append.mp met).resolve_left notBefore
    exact ⟨above, within.extent_of_mem_selfAndParents nested above⟩
  · right
    refine ⟨fun n within covers => ?_, first⟩
    exact noneMatches n ((onWay within).mp covers)

/-- Without a field, the scope that a node matches is the node itself. -/
theorem range_of_find (whole : m.field = none) (here : m.find d n = .ok (some found)) :
    found.range = n.range d := by
  obtain ⟨scope, source⟩ := exists_scopeFrom here
  have narrowed := source.narrowed
  simp only [scopeNode?, whole, Option.some.injEq] at narrowed
  rw [narrowed, source.range]

end NodeMatcher

namespace Node

variable {d : Document} {t : SyntaxTree} {n : Node} {p : Position}

/-- A node that covers the offset of a position covers the position too. -/
theorem range_around (within : Within t n) (ordered : t.Ordered) (fits : t.Fits d.text)
    (contained : d.contains p = true) (covers : n.label.Covers (d.byteOffset p)) :
    (n.range d).start ≤ p ∧ p < (n.range d).stop := by
  rw [start_range within ordered, stop_range within ordered]
  constructor
  · calc
      d.positionOfByte n.label.start ≤ d.positionOfByte (d.byteOffset p) :=
        Document.positionOfByte_mono covers.1
      _ = p := Document.positionOfByte_byteOffset contained
  · obtain ⟨index, inText, stop⟩ :=
      (within.inherit (fun _ parent _ => parent.of_mem_children) fits).exists_stop
    have later : d.index p < index := by
      apply Text.lt_of_byteOffset_lt (Document.index_le_length p) inText
      rw [← stop]
      exact covers.2
    calc
      p = d.position (d.index p) := (Document.position_index contained).symm
      _ < d.position index := Document.position_lt_position later inText
      _ = d.positionOfByte (d.text.byteOffset index) := by
        rw [Document.positionOfByte, Text.charIndex_byteOffset inText]
      _ = d.positionOfByte n.label.stop := congrArg d.positionOfByte stop.symm

end Node

namespace Workspace

variable {w : Workspace} {d : Document} {s : Span} {kind : ScopeKind} {m : NodeMatcher}

/-! ## What the modifier means -/

/-- The search from the start of a range finds the match of a node. -/
def ScopeAt (w : Workspace) (m : NodeMatcher) (d : Document) (r : Range) (n : Node)
    (found : ScopeMatch) : Prop :=
  ∃ start, w.nodeAt? d r.start = some start ∧
    ScopeMatcher.findFirst m d start.selfAndParents = .ok (some (n, found))

section Search

variable (matcher : w.matcher d.language kind = .ok m)

include matcher

theorem parts_of_nodeAt?_none (noTree : w.nodeAt? d s.range.start = none) :
    w.parts (.containingScope kind false) d s =
      Answer.refuse (.containingScopeNotFound kind) := by
  simp only [parts, scopesAround, matcher, noTree]
  rfl

theorem parts_of_findFirst_none {start : Node} (smallest : w.nodeAt? d s.range.start = some start)
    (first : ScopeMatcher.findFirst m d start.selfAndParents = .ok none) :
    w.parts (.containingScope kind false) d s =
      Answer.refuse (.containingScopeNotFound kind) := by
  simp only [parts, scopesAround, matcher, smallest, bind, Except.bind, first]
  rfl

theorem parts_of_scopeAt {n : Node} {found : ScopeMatch} (scope : w.ScopeAt m d s.range n found) :
    w.parts (.containingScope kind false) d s = .ok [found.part s.doc] := by
  obtain ⟨start, smallest, first⟩ := scope
  simp only [parts, scopesAround, matcher, smallest, bind, Except.bind, first]
  cases n.parent? <;> rfl

end Search

/-- The scope around a position is the match of the smallest node that covers it and matches, of
all the nodes of the tree, and none is found only if no such node exists.  The scope covers the
position unless it is narrowed to a field or the tree is that of another text. -/
theorem parts_containingScope_innermost (w : Workspace) (d : Document) (s : Span)
    (kind : ScopeKind) {m : NodeMatcher} (matcher : w.matcher d.language kind = .ok m)
    (contained : d.contains s.range.start = true)
    (wellFormed : ∀ t, w.trees.get? d.id = some t →
      t.Nested ∧ t.Filled ∧ t.label.Covers (d.byteOffset s.range.start)) :
    (∀ t other otherFound, w.trees.get? d.id = some t → Node.Within t other →
      other.label.Covers (d.byteOffset s.range.start) → m.find d other = .ok (some otherFound) →
        ∃ n found, m.Innermost d t (d.byteOffset s.range.start) n found ∧
          w.parts (.containingScope kind false) d s = .ok [found.part s.doc]) ∧
    (w.parts (.containingScope kind false) d s = Answer.refuse (.containingScopeNotFound kind) ↔
      ¬ ∃ t n found, w.trees.get? d.id = some t ∧ Node.Within t n ∧
        n.label.Covers (d.byteOffset s.range.start) ∧ m.find d n = .ok (some found)) ∧
    (m.field = none → ∀ t, w.trees.get? d.id = some t → t.Fits d.text → ∀ parts,
      w.parts (.containingScope kind false) d s = .ok parts → ∀ part ∈ parts,
        part.span.range.start ≤ s.range.start ∧ s.range.start < part.span.range.stop) := by
  cases known : w.trees.get? d.id with
  | none =>
      have noTree : w.nodeAt? d s.range.start = none := by
        rw [nodeAt?_eq, known]
        rfl
      have refused := parts_of_nodeAt?_none matcher noTree
      refine ⟨by simp, ?_, by simp⟩
      simp [refused]
  | some t =>
      obtain ⟨nested, filled, inside⟩ := wellFormed t known
      have start : w.nodeAt? d s.range.start =
          some (Node.atOffset t (d.byteOffset s.range.start)) := by
        rw [nodeAt?_eq, known]
        rfl
      rcases m.findFirst_atOffset d nested filled inside with
        ⟨n, found, innermost, first⟩ | ⟨noMatch, first⟩
      · have meant := parts_of_scopeAt matcher ⟨_, start, first⟩
        refine ⟨?_, ?_, ?_⟩
        · rintro _ _ _ ⟨⟩ _ _ _
          exact ⟨n, found, innermost, meant⟩
        · refine iff_of_false ?_ ?_
          · intro refused
            cases meant.symm.trans refused
          · exact not_not_intro ⟨t, n, found, rfl, innermost.within, innermost.covers,
              innermost.find_eq⟩
        · rintro whole _ ⟨⟩ fits parts same part member
          cases meant.symm.trans same
          cases List.mem_singleton.mp member
          have range : (found.part s.doc).span.range = n.range d :=
            NodeMatcher.range_of_find whole innermost.find_eq
          rw [range]
          exact Node.range_around innermost.within nested.ordered fits contained innermost.covers
      · have refused := parts_of_findFirst_none matcher start first
        refine ⟨?_, iff_of_true refused ?_, ?_⟩
        · rintro _ n found ⟨⟩ within covers here
          cases here.symm.trans (noMatch n within covers)
        · rintro ⟨_, n, found, ⟨⟩, within, covers, here⟩
          cases here.symm.trans (noMatch n within covers)
        · intro _ _ _ _ parts meant
          cases refused.symm.trans meant

/-- The tree of the text `((x))`, without its brackets: a name in a group in a group. -/
def groupsTree : SyntaxTree :=
  .node ⟨"group", true, none, 0, 5⟩
    [.node ⟨"group", true, none, 1, 4⟩ [.node ⟨"name", true, none, 2, 3⟩ []]]

def groupsText : Document := ⟨⟨1⟩, "groups", ['(', '(', 'x', ')', ')']⟩

/-- The text `((x))` with its tree and a matcher for groups. -/
def groups : Workspace where
  documents := .ofList [groupsText]
  trees := .ofList [(⟨1⟩, groupsTree)]
  scopes := some (ScopeRegistry.empty.register "groups" .value { kinds := ["group"] })

theorem nested_groupsTree : groupsTree.Nested := by
  refine .node (by decide) (List.pairwise_singleton _ _) (by simp [SyntaxTree.label]) ?_
  refine List.forall_mem_singleton.mpr ?_
  refine .node (by decide) (List.pairwise_singleton _ _) (by simp [SyntaxTree.label]) ?_
  exact List.forall_mem_singleton.mpr (.node (by decide) List.Pairwise.nil (by simp) (by simp))

theorem filled_groupsTree : groupsTree.Filled := by
  refine .node (by decide) (List.forall_mem_singleton.mpr ?_)
  refine .node (by decide) (List.forall_mem_singleton.mpr ?_)
  exact .node (by decide) (by simp)

theorem fits_groupsTree : groupsTree.Fits groupsText.text := by
  refine .node ⟨0, by decide, rfl⟩ ⟨5, by decide, rfl⟩ (List.forall_mem_singleton.mpr ?_)
  refine .node ⟨1, by decide, rfl⟩ ⟨4, by decide, rfl⟩ (List.forall_mem_singleton.mpr ?_)
  exact .node ⟨2, by decide, rfl⟩ ⟨3, by decide, rfl⟩ (by simp)

/-- Since the whole text is a group around the name, there is an innermost group around it, and it
covers the name. -/
theorem group_around_name :
    ∃ n found, NodeMatcher.Innermost { kinds := ["group"] } groupsText groupsTree 2 n found ∧
      groups.parts (.containingScope .value false) groupsText ⟨⟨1⟩, .point ⟨0, 2⟩⟩ =
        .ok [found.part ⟨1⟩] ∧
      found.range.start ≤ ⟨0, 2⟩ ∧ (⟨0, 2⟩ : Position) < found.range.stop := by
  have wellFormed : ∀ t, groups.trees.get? ⟨1⟩ = some t →
      t.Nested ∧ t.Filled ∧ t.label.Covers 2 := by
    rintro _ ⟨⟩
    exact ⟨nested_groupsTree, filled_groupsTree, by decide, by decide⟩
  obtain ⟨finds, _, covers⟩ := parts_containingScope_innermost groups groupsText
    ⟨⟨1⟩, .point ⟨0, 2⟩⟩ .value rfl rfl wellFormed
  obtain ⟨n, found, innermost, meant⟩ := finds groupsTree (.root groupsTree) _ rfl .root
    ⟨by decide, by decide⟩ rfl
  have around := covers rfl groupsTree rfl fits_groupsTree _ meant _ (List.mem_singleton_self _)
  exact ⟨n, found, innermost, meant, around⟩

end Workspace

end TargetSpans
