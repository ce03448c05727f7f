import TargetSpans.Keyed
import TargetSpans.Scope.Matcher

/-!
# Scope registries

A registry knows which matcher finds the scopes of a kind in documents of a language.
-/

namespace TargetSpans

/-- The matchers by language and kind of scope.  Where nothing else is said, they are described by
kinds of nodes. -/
structure ScopeRegistry (M : Type := NodeMatcher) where
  matchers : Keyed (String × ScopeKind) M

namespace ScopeRegistry

variable {M : Type}

def empty : ScopeRegistry M := ⟨.empty⟩

/-- The registry with one more matcher, in place of an earlier one for the same scopes. -/
def register (r : ScopeRegistry M) (language : String) (kind : ScopeKind) (m : M) :
    ScopeRegistry M :=
  ⟨r.matchers.insert (language, kind) m⟩

def matcher (r : ScopeRegistry M) (language : String) (kind : ScopeKind) : Answer M :=
  match r.matchers.get? (language, kind) with
  | some m => .ok m
  | none => .refuse (.noScopeMatcher language kind)

def languages (r : ScopeRegistry M) : List String :=
  (r.matchers.keys.map Prod.fst).eraseDups.mergeSort (· ≤ ·)

end ScopeRegistry

end TargetSpans
