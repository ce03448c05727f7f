import TargetSpans.Scope.Config
import TargetSpans.Toml.Reader

/-!
# Scope configurations in TOML

A configuration is a table with an array of languages, each a table with the name of the language
and a table of scopes.  Unknown keys are never passed over.  A language or a scope may also be
written as the array of its fields in their order; what goes beyond the fields is ignored.
-/

namespace TargetSpans

open Toml

/-- Why there is no configuration. -/
inductive ConfigError where
  /-- The file at a path cannot be read. -/
  | unreadableFile (path : String)
  | malformed
  deriving DecidableEq, Repr

/-- What a user is told. -/
def ConfigError.message : ConfigError → String
  | unreadableFile path => s!"failed to read {path}"
  | malformed => "invalid scope configuration"

/-- The fields of a record, by the given names, if it has no others. -/
def fieldsOf? (names : List String) : Toml.Value → Option (List (Option Toml.Value))
  | .table entries =>
      if entries.all fun e => names.contains e.1 then
        some (names.map (Table.get? entries))
      else none
  | .array items => some ((List.range names.length).map fun i => items[i]?)
  | _ => none

/-- The value of a field that may be left out. -/
def fieldOr? {α : Type} (default : α) (read : Toml.Value → Option α) : Option Toml.Value → Option α
  | none => some default
  | some v => read v

namespace ScopeDefinition

def fieldNames : List String := ["kinds", "parents", "field", "delimiter"]

def ofToml? (v : Toml.Value) : Option ScopeDefinition := do
  match ← fieldsOf? fieldNames v with
  | [kinds, parents, field, delimiter] => do
      let kinds ← fieldOr? [] Toml.Value.strings? kinds
      let parents ← fieldOr? [] Toml.Value.strings? parents
      let field ← fieldOr? none (fun v => (Toml.Value.string? v).map some) field
      let delimiter ← fieldOr? none (fun v => (Toml.Value.string? v).map some) delimiter
      return { kinds, parents, field, delimiter }
  | _ => none

end ScopeDefinition

namespace LanguageScopes

/-- The definitions in a table of scopes. -/
def scopesOfToml? : Toml.Value → Option (ScopeKind → Option ScopeDefinition)
  | .table entries => do
      let scopes ← entries.mapM fun e => do
        return (← ScopeKind.ofLabel? e.1, ← ScopeDefinition.ofToml? e.2)
      return fun kind => (scopes.find? fun s => s.1 = kind).map Prod.snd
  | _ => none

def fieldNames : List String := ["language-id", "scopes"]

def ofToml? (v : Toml.Value) : Option LanguageScopes := do
  match ← fieldsOf? fieldNames v with
  | [language, scopes] => do
      let language ← Toml.Value.string? (← language)
      let scopes ← fieldOr? (fun _ => none) scopesOfToml? scopes
      return ⟨language, scopes⟩
  | _ => none

end LanguageScopes

namespace ScopeConfig

/-- The languages that a value lists. -/
def languagesOfToml? : Toml.Value → Option (List LanguageScopes)
  | .array items => items.mapM LanguageScopes.ofToml?
  | _ => none

def fieldNames : List String := ["language"]

def ofTable? (t : Toml.Table) : Option ScopeConfig := do
  match ← fieldsOf? fieldNames (.table t) with
  | [languages] => do
      let languages ← fieldOr? [] languagesOfToml? languages
      return ⟨languages⟩
  | _ => none

def ofToml (text : String) : Except ConfigError ScopeConfig :=
  match (Toml.parse? text).bind ofTable? with
  | some config => .ok config
  | none => .error .malformed

/-- Some texts layered in their order on a configuration. -/
def layerToml (base : ScopeConfig) (texts : List String) : Except ConfigError ScopeConfig :=
  texts.foldlM (fun config text => do return config.layer (← ofToml text)) base

end ScopeConfig

end TargetSpans
