import TargetSpans.Scope.Config

/-!
# Built-in scopes

The scopes that are defined without any configuration.
-/

namespace TargetSpans

def rustScopes : ScopeKind → Option ScopeDefinition
  | .namedFunction => some { kinds := ["function_item"] }
  | .functionName => some { kinds := ["function_item"], field := some "name" }
  | .classDeclaration =>
      some { kinds := ["struct_item", "enum_item", "union_item", "trait_item", "impl_item"] }
  | .className =>
      some {
        kinds := ["struct_item", "enum_item", "union_item", "trait_item"]
        field := some "name" }
  | .argumentOrParameter =>
      some {
        parents := ["arguments", "parameters", "closure_parameters"]
        delimiter := some "," }
  | .functionCall => some { kinds := ["call_expression", "macro_invocation"] }
  | .arrowFunction => some { kinds := ["closure_expression"] }
  | .ifStatement => some { kinds := ["if_expression"] }
  | .comment => some { kinds := ["line_comment", "block_comment"] }
  | .string => some { kinds := ["string_literal", "raw_string_literal"] }
  | .list => some { kinds := ["array_expression", "tuple_expression"] }
  | .dictionary => some { kinds := ["struct_expression"] }
  | .pair =>
      some {
        kinds := ["field_initializer", "shorthand_field_initializer"]
        parents := ["field_initializer_list"]
        delimiter := some "," }
  | .name => some { kinds := ["let_declaration"], field := some "pattern" }
  | .value => some { kinds := ["let_declaration"], field := some "value" }
  | .type =>
      some {
        kinds := ["let_declaration", "parameter", "field_declaration"]
        field := some "type" }

def ScopeConfig.builtin : ScopeConfig := ⟨[⟨"rust", rustScopes⟩]⟩

/-- The built-in scopes as they are written. -/
def builtinText : String := r#"# Built-in scope definitions.
#
# Each `[language.scopes.<scope>]` table compiles into a node matcher:
#   kinds     - node kinds that match, any named node when omitted
#   parents   - kinds the parent node must have
#   field     - select this child of the matched node instead
#   delimiter - separator token between sibling matches

[[language]]
language-id = "rust"

[language.scopes.namedFunction]
kinds = ["function_item"]

[language.scopes.functionName]
kinds = ["function_item"]
field = "name"

[language.scopes.class]
kinds = ["struct_item", "enum_item", "union_item", "trait_item", "impl_item"]

[language.scopes.className]
kinds = ["struct_item", "enum_item", "union_item", "trait_item"]
field = "name"

[language.scopes.argumentOrParameter]
parents = ["arguments", "parameters", "closure_parameters"]
delimiter = ","

[language.scopes.functionCall]
kinds = ["call_expression", "macro_invocation"]

[language.scopes.arrowFunction]
kinds = ["closure_expression"]

[language.scopes.ifStatement]
kinds = ["if_expression"]

[language.scopes.comment]
kinds = ["line_comment", "block_comment"]

[language.scopes.string]
kinds = ["string_literal", "raw_string_literal"]

[language.scopes.list]
kinds = ["array_expression", "tuple_expression"]

[language.scopes.dictionary]
kinds = ["struct_expression"]

[language.scopes.pair]
kinds = ["field_initializer", "shorthand_field_initializer"]
parents = ["field_initializer_list"]
delimiter = ","

[language.scopes.name]
kinds = ["let_declaration"]
field = "pattern"

[language.scopes.value]
kinds = ["let_declaration"]
field = "value"

[language.scopes.type]
kinds = ["let_declaration", "parameter", "field_declaration"]
field = "type"
"#

def ScopeRegistry.builtin : ScopeRegistry := .ofConfig .builtin

end TargetSpans
