/-!
# Kinds of scopes

The parts of a program that a target can ask for by name.
-/

namespace TargetSpans

/-- A kind of scope, in the order of the names. -/
inductive ScopeKind where
  | argumentOrParameter
  | arrowFunction
  | classDeclaration
  | className
  | comment
  | dictionary
  | functionCall
  | functionName
  | ifStatement
  | list
  | name
  | namedFunction
  | pair
  | string
  | type
  | value
  deriving DecidableEq, Repr

namespace ScopeKind

/-- All kinds of scopes, in the order of their names. -/
def all : List ScopeKind :=
  [.argumentOrParameter, .arrowFunction, .classDeclaration, .className, .comment, .dictionary,
    .functionCall, .functionName, .ifStatement, .list, .name, .namedFunction, .pair, .string,
    .type, .value]

/-- The name of a kind, in targets, configurations and messages alike. -/
def label : ScopeKind → String
  | argumentOrParameter => "argumentOrParameter"
  | arrowFunction => "arrowFunction"
  | classDeclaration => "class"
  | className => "className"
  | comment => "comment"
  | dictionary => "dictionary"
  | functionCall => "functionCall"
  | functionName => "functionName"
  | ifStatement => "ifStatement"
  | list => "list"
  | name => "name"
  | namedFunction => "namedFunction"
  | pair => "pair"
  | string => "string"
  | type => "type"
  | value => "value"

def ofLabel? (s : String) : Option ScopeKind := all.find? fun k => k.label = s

theorem mem_all (k : ScopeKind) : k ∈ all := by
  cases k <;> decide

theorem ofLabel?_label (k : ScopeKind) : ofLabel? k.label = some k := by
  cases k <;> rfl

end ScopeKind

end TargetSpans
