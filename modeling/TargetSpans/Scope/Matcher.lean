import TargetSpans.Context
import TargetSpans.Failure
import TargetSpans.SyntaxTree

/-!
# Scope matchers

A matcher decides whether a node is a scope of some kind and, if so, which range the scope covers
and what separates it from the scopes beside it.  A matcher can be described by kinds of nodes or be
given by any code.
-/

namespace TargetSpans

structure ScopeMatch where
  range : Range
  context : DelimiterContext
  deriving DecidableEq, Repr

/-- What decides whether a node is a scope.  It may ask a text something that has no answer, but it
does not refuse a target. -/
class ScopeMatcher (M : Type) where
  find : M → Document → Node → Answer (Option ScopeMatch)
  find_ne_refuse (m : M) (d : Document) (n : Node) (cause : Refusal) : find m d n ≠ .refuse cause

/-! ## Matchers given by code -/

/-- A matcher given by code: what it makes of a node, if that is defined. -/
structure CodeMatcher where
  find? : Document → Node → Option (Option ScopeMatch)

instance : ScopeMatcher CodeMatcher where
  find m d n := .ofOption (m.find? d n)
  find_ne_refuse m d n _ := Answer.ofOption_ne_refuse (m.find? d n)

/-! ## Matchers described by kinds of nodes -/

/-- A scope described by kinds of nodes. -/
structure NodeMatcher where
  /-- The kinds of nodes that match; with none given, every named node does. -/
  kinds : List String := []
  /-- The kinds that the parent may have, if any are given. -/
  parents : List String := []
  /-- Narrows the scope to the child that fills this field. -/
  field : Option String := none
  /-- The kind of the node that separates two scopes. -/
  delimiter : Option String := none
  deriving DecidableEq, Repr

namespace Node

/-- The delimiter before a node: the sibling of the given kind right before it, with the gaps on
both sides, the left one only if a named node comes before the delimiter. -/
def leadingDelimiter? (n : Node) (d : Document) (delimiter : String) : Option Range :=
  match n.before with
  | [] => none
  | sibling :: further =>
      if sibling.label.kind = delimiter then
        let start :=
          match further.head? with
          | some previous =>
              if previous.label.named then previous.label.stop else sibling.label.start
          | none => sibling.label.start
        some ⟨d.positionOfByte start, d.positionOfByte n.label.start⟩
      else none

/-- The delimiter after a node: the sibling of the given kind right after it, with the gaps on both
sides, the right one only if a named node comes after the delimiter. -/
def trailingDelimiter? (n : Node) (d : Document) (delimiter : String) : Option Range :=
  match n.after with
  | [] => none
  | sibling :: further =>
      if sibling.label.kind = delimiter then
        let stop :=
          match further.head? with
          | some next => if next.label.named then next.label.start else sibling.label.stop
          | none => sibling.label.stop
        some ⟨d.positionOfByte n.label.stop, d.positionOfByte stop⟩
      else none

/-- The delimiters of a node among its siblings.  Where it has none, the delimiter is taken to be
written with a space after it. -/
def siblingContext (n : Node) (d : Document) (delimiter : String) : Answer DelimiterContext := do
  let leading := n.leadingDelimiter? d delimiter
  let trailing := n.trailingDelimiter? d delimiter
  match trailing <|> leading with
  | none => return .ofDelimiters (delimiter.toList ++ [' ']) leading trailing
  | some nearest =>
      let literal ← .ofOption (d.textOf? nearest)
      return { DelimiterContext.ofDelimiters literal leading trailing with
        outer := some ((n.range d).union nearest) }

theorem siblingContext_ne_refuse (n : Node) (d : Document) (delimiter : String) (cause : Refusal) :
    n.siblingContext d delimiter ≠ .refuse cause := by
  simp only [siblingContext]
  split
  · exact nofun
  · exact Answer.bind_ne_refuse (Answer.ofOption_ne_refuse _) fun _ => nofun

end Node

namespace NodeMatcher

/-- Whether a node and its parent are of the right kinds. -/
def accepts (m : NodeMatcher) (n : Node) : Bool :=
  (if m.kinds.isEmpty then n.label.named else m.kinds.contains n.label.kind) &&
    (m.parents.isEmpty || n.parent?.any fun p => m.parents.contains p.label.kind)

/-- The node whose range is the scope: the accepted node itself or the child in the field. -/
def scopeNode? (m : NodeMatcher) (n : Node) : Option Node :=
  match m.field with
  | none => some n
  | some field => n.childByField? field

def find (m : NodeMatcher) (d : Document) (n : Node) : Answer (Option ScopeMatch) :=
  if m.accepts n then
    match m.scopeNode? n with
    | none => return none
    | some scope => do
        let context ←
          match m.delimiter with
          | none => pure {}
          | some delimiter => scope.siblingContext d delimiter
        return some ⟨scope.range d, context⟩
  else return none

instance : ScopeMatcher NodeMatcher where
  find := find
  find_ne_refuse m d n cause := by
    unfold find
    split
    case isFalse => exact nofun
    case isTrue =>
      split
      case h_1 => exact nofun
      case h_2 scope _ =>
        cases m.delimiter with
        | none => exact nofun
        | some delimiter =>
            exact Answer.bind_ne_refuse (scope.siblingContext_ne_refuse d delimiter cause)
              fun _ => nofun

theorem find_eq (m : NodeMatcher) (d : Document) (n : Node) :
    ScopeMatcher.find m d n = m.find d n :=
  rfl

/-- A described matcher as one given by code, so that a registry may hold both. -/
def toCode (m : NodeMatcher) : CodeMatcher := ⟨fun d n => (m.find d n).toOption⟩

theorem find_toCode (m : NodeMatcher) (d : Document) (n : Node) :
    ScopeMatcher.find m.toCode d n = m.find d n := by
  have notRefused : ∀ cause, m.find d n ≠ .refuse cause := ScopeMatcher.find_ne_refuse m d n
  change Answer.ofOption (m.find d n).toOption = m.find d n
  cases found : m.find d n with
  | ok result => rfl
  | error failure =>
      cases failure with
      | undefined => rfl
      | refused cause => exact absurd found (notRefused cause)

end NodeMatcher

end TargetSpans
