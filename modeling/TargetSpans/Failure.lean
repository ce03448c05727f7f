import TargetSpans.Document
import TargetSpans.Scope.Kind

/-!
# Failures

A target that cannot be resolved is refused with a cause.  Apart from that, a step can ask
something of a text that has no answer, such as the end of a row that is not there; such a failure
is kept apart from all refusals.
-/

namespace TargetSpans

/-- The parts of the target language that are reserved but not available. -/
inductive Feature where
  | lastCursorPosition
  | matchingPairSymbol
  | surroundingPair
  | characterSelection
  deriving DecidableEq, Repr

/-- How a message calls a reserved feature. -/
def Feature.label : Feature → String
  | lastCursorPosition => "lastCursorPosition mark"
  | matchingPairSymbol => "matchingPairSymbol modifier"
  | surroundingPair => "surroundingPair modifier"
  | characterSelection => "character selection type"

/-- Why a target cannot be resolved. -/
inductive Refusal where
  | markNotFound (color : String) (character : Char)
  | containingScopeNotFound (kind : ScopeKind)
  | indexOutOfRange (index : Int) (count : Nat)
  | lengthMismatch (starts stops : Nat)
  | crossDocumentRange
  | notImplemented (feature : Feature)
  | unknownDocument (doc : DocumentId)
  | outOfBounds (doc : DocumentId) (position : Position)
  | noScopeMatcher (language : String) (kind : ScopeKind)
  deriving DecidableEq, Repr

namespace Refusal

/-- What a user is told. -/
def message : Refusal → String
  | markNotFound color character => s!"couldn't find mark {color} '{character}'"
  | containingScopeNotFound kind => s!"couldn't find containing {kind.label}"
  | indexOutOfRange index count => s!"piece index {index} out of range for {count} pieces"
  | lengthMismatch starts stops => s!"range endpoints resolved to {starts} and {stops} spans"
  | crossDocumentRange => "range endpoints must be in the same document"
  | notImplemented feature => s!"{feature.label} is not implemented"
  | unknownDocument doc => s!"document {doc.label} is not open"
  | outOfBounds doc position =>
      s!"{position.row}:{position.col} is outside document {doc.label}"
  | noScopeMatcher language kind =>
      s!"no {kind.label} matcher registered for language '{language}'"

/-- Whether the user can do something about a refusal; asking for a reserved feature is hopeless. -/
def isActionable : Refusal → Bool
  | notImplemented _ => false
  | _ => true

end Refusal

/-- Why there is no result. -/
inductive Failure where
  | refused (cause : Refusal)
  /-- A text was asked something that has no answer. -/
  | undefined
  deriving DecidableEq, Repr

/-- A result or the reason why there is none. -/
abbrev Answer (α : Type) := Except Failure α

namespace Answer

/-- The answer to a question about a text, if it has one. -/
def ofOption {α : Type} : Option α → Answer α
  | some a => .ok a
  | none => .error .undefined

def refuse {α : Type} (cause : Refusal) : Answer α := .error (.refused cause)

variable {α β : Type} {cause : Refusal}

/-- A question about a text is never refused itself. -/
theorem ofOption_ne_refuse (o : Option α) : ofOption o ≠ refuse cause := by
  cases o <;> exact nofun

theorem bind_ne_refuse {x : Answer α} {f : α → Answer β} (first : x ≠ refuse cause)
    (next : ∀ a, f a ≠ refuse cause) : x >>= f ≠ refuse cause := by
  cases x with
  | error failure =>
      intro refused
      cases refused
      exact first rfl
  | ok a => exact next a

end Answer

end TargetSpans
