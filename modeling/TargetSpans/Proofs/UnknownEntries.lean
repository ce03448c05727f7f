import Mathlib.Data.List.Nodup
import Mathlib.Logic.Relation
import TargetSpans.Json.Reader
import TargetSpans.Proofs.TargetRoles

/-!
# Unknown entries

A written target may hold more than it needs.  In each object that is read as a target, as an item
of a list, as an end of a range, as a mark or as a modifier, entries with unknown keys may stand at
any place, and which keys are known depends on the variant that the tag of that object chooses.
Such entries are never looked at, except that all of a target has to denote something.  A known key
must not come twice.
-/

namespace TargetSpans

open Json

namespace Json

variable {front back : List (String × Value)} {key name : String} {v w : Value}

namespace Record

end Record

end Json

namespace Role

/-- One entry is added under a key that is unknown. -/
def AddsUnknown (readable : Bool) (role : Role) (before after : List (String × Value)) : Prop :=
  ∃ front back key w, before = front ++ back ∧ after = front ++ (key, w) :: back ∧
    key ∉ role.keys (role.variant? before) ∧ w.isReadable = readable

variable {role inner : Role} {front back entries entries' : List (String × Value)}
  {key name : String} {v v' w tag : Value} {fields : Fields} {variant : Option String}
  {r : Record}

/-! ## Where the tag stands -/

theorem nodup_fields (role : Role) (variant : Option String) :
    ((role.fields variant).map Prod.fst).Nodup := by
  unfold Role.fields elementFields
  split <;> (try split) <;> simp [primitiveFields]

end Role

namespace Target

open Role

end Target

end TargetSpans
