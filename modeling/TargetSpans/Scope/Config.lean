import TargetSpans.Scope.Registry

/-!
# Scope configurations

A configuration defines, language by language, the scopes of each kind.  Configurations are layered:
a later one takes precedence, scope by scope.  In the end each definition becomes a matcher.
-/

namespace TargetSpans

/-- What a configuration says of the scopes of one kind. -/
structure ScopeDefinition where
  kinds : List String := []
  parents : List String := []
  field : Option String := none
  delimiter : Option String := none
  deriving DecidableEq, Repr

/-- The matcher that a definition describes. -/
def ScopeDefinition.matcher (d : ScopeDefinition) : NodeMatcher where
  kinds := d.kinds
  parents := d.parents
  field := d.field
  delimiter := d.delimiter

/-- The scopes that a configuration defines for one language. -/
structure LanguageScopes where
  language : String
  definitions : ScopeKind → Option ScopeDefinition

/-- A scope configuration.  A text may list one language several times. -/
structure ScopeConfig where
  languages : List LanguageScopes

namespace LanguageScopes

/-- The matcher for the scopes of a kind, if they are defined. -/
def scopes (entry : LanguageScopes) (kind : ScopeKind) : Option NodeMatcher :=
  (entry.definitions kind).map ScopeDefinition.matcher

/-- The scopes of a language with those of a later entry in front. -/
def layer (base later : LanguageScopes) : LanguageScopes :=
  ⟨base.language, fun kind => later.definitions kind <|> base.definitions kind⟩

end LanguageScopes

namespace ScopeConfig

def empty : ScopeConfig := ⟨[]⟩

/-- Layer one more entry on a list: on the first entry for its language, or as a new one. -/
def layerEntry : List LanguageScopes → LanguageScopes → List LanguageScopes
  | [], later => [later]
  | entry :: rest, later =>
      if entry.language = later.language then entry.layer later :: rest
      else entry :: layerEntry rest later

/-- A configuration with another one layered on top. -/
def layer (base later : ScopeConfig) : ScopeConfig :=
  ⟨later.languages.foldl layerEntry base.languages⟩

def entry? (c : ScopeConfig) (language : String) : Option LanguageScopes :=
  c.languages.find? fun entry => entry.language = language

end ScopeConfig

namespace ScopeRegistry

/-- A registry with the matchers of one entry of a configuration. -/
def registerEntry (r : ScopeRegistry) (entry : LanguageScopes) : ScopeRegistry :=
  ScopeKind.all.foldl
    (fun r kind =>
      match entry.scopes kind with
      | some m => r.register entry.language kind m
      | none => r)
    r

/-- The registry of a configuration.  Where it has two matchers for the same scopes, the later one
counts. -/
def ofConfig (c : ScopeConfig) : ScopeRegistry := c.languages.foldl registerEntry empty

end ScopeRegistry

end TargetSpans
