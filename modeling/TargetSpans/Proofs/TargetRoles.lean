import TargetSpans.Proofs.JsonFields
import TargetSpans.Target.Json

/-!
# What the parts of a target are read as

A target is read from nested records, and which fields a record has depends on what it is read as
and on the variant that its tag chooses.  The readers get to know a record only through the look-up
of these fields.  So two records in which each field is found alike are read alike, and a record
with a field that is refused is refused.
-/

namespace TargetSpans

open Json

/-- What a value within a target is read as. -/
inductive Role where
  | target
  /-- The array of the elements of a list. -/
  | elements
  | element
  /-- An end of a range, which has no tag. -/
  | endpoint
  | mark
  | modifier
  deriving DecidableEq

namespace Role

/-- Fields in their order, each with what its value is read as if that is a record again. -/
abbrev Fields := List (String × Option Role)

def primitiveFields : Fields :=
  [("mark", some mark), ("modifier", some modifier), ("selectionType", none),
    ("insideOutsideType", none), ("position", none)]

def elementFields : String → Fields
  | "primitive" => primitiveFields
  | "range" => [("start", some endpoint), ("end", some endpoint)]
  | _ => []

/-- The fields of a record that is read as something, if its tag chooses the given variant. -/
def fields : Role → Option String → Fields
  | target, some "list" => [("elements", some elements)]
  | target, some variant | element, some variant => elementFields variant
  | endpoint, _ => primitiveFields
  | mark, some "decoratedSymbol" => [("symbolColor", none), ("character", none)]
  | modifier, some "containingScope" => [("scopeType", none), ("includeSiblings", none)]
  | modifier, some "subpiece" => [("pieceType", none), ("anchor", none), ("active", none)]
  | _, _ => []

/-- The variants that a tag chooses from. -/
def tags : Role → List String
  | target => Target.tags
  | element => Element.tags
  | mark => Mark.tags
  | modifier => Modifier.tags
  | elements | endpoint => []

/-- Whether a record has a tag in front of its fields. -/
def isTagged : Role → Bool
  | target | element | mark | modifier => true
  | elements | endpoint => false

def setting : Role → Setting
  | target => .outermost
  | _ => .nested

/-- The variant that the value of a tag chooses. -/
def variantOf? (role : Role) (tag : Value) : Option String := do
  (← Tag.ofValue? role.setting tag).choose? role.tags

/-- The variant that the tag of an object chooses. -/
def variant? (role : Role) (entries : List (String × Value)) : Option String :=
  match entries.filter fun e => e.1 = tagKey with
  | [e] => role.variantOf? e.2
  | _ => none

/-- The keys that are known in an object whose tag chooses the given variant. -/
def keys (role : Role) (variant : Option String) : List String :=
  (if role.isTagged then [tagKey] else []) ++ (role.fields variant).map Prod.fst

/-- What there is of a role. -/
def Result : Role → Type
  | target => Target
  | elements => List Element
  | element => Element
  | endpoint => Primitive
  | mark => Mark
  | modifier => Modifier

/-- How a value within a target is read. -/
def read? : (role : Role) → Value → Option role.Result
  | target => Target.ofJson?
  | elements => Target.elements?
  | element => Element.ofJson?
  | endpoint => Primitive.ofJson? .nested
  | mark => Mark.ofJson? .nested
  | modifier => Modifier.ofJson? .nested

/-- Two values of a field are read alike. -/
def Agrees : Option Role → Value → Value → Prop
  | none, v, v' => v' = v
  | some role, v, v' => role.read? v' = role.read? v

/-- Two records in which each field is found alike. -/
structure Alike (fields : Fields) (r r' : Record) : Prop where
  fits : ∀ count, r'.fits count = r.fits count
  found : ∀ place name inner, fields[place]? = some (name, inner) →
    Option.Rel (Option.Rel (Agrees inner)) (r.lookup? place name) (r'.lookup? place name)

/-- A field is there twice, or its value is refused. -/
def Spoils (inner : Option Role) (found : Option (Option Value)) : Prop :=
  found = none ∨ ∃ role v, inner = some role ∧ found = some (some v) ∧ role.read? v = none

section

variable {α : Type} {fields : Fields} {r r' : Record} {place : Nat} {name : String}
  {inner : Option Role} {read : Value → Option α}

theorem Alike.required? (alike : Alike fields r r') (known : fields[place]? = some (name, inner))
    (reads : ∀ v v', Agrees inner v v' → read v' = read v) :
    r'.required? place name read = r.required? place name read := by
  have found := alike.found place name inner known
  unfold Record.required?
  generalize r.lookup? place name = before, r'.lookup? place name = after at found ⊢
  cases found with
  | none => rfl
  | some found =>
      cases found with
      | none => rfl
      | some agrees => simp [reads _ _ agrees]

theorem Alike.optional? (alike : Alike fields r r') (known : fields[place]? = some (name, inner))
    (default : α) (reads : ∀ v v', Agrees inner v v' → read v' = read v) :
    r'.optional? place name default read = r.optional? place name default read := by
  have found := alike.found place name inner known
  unfold Record.optional?
  generalize r.lookup? place name = before, r'.lookup? place name = after at found ⊢
  cases found with
  | none => rfl
  | some found =>
      cases found with
      | none => rfl
      | some agrees => simp [reads _ _ agrees]

theorem Spoils.required? (spoils : Spoils inner (r.lookup? place name))
    (refuses : ∀ role v, inner = some role → role.read? v = none → read v = none) :
    r.required? place name read = none := by
  rcases spoils with twice | ⟨role, v, known, once, refused⟩
  · simp [Record.required?, twice]
  · simp [Record.required?, once, refuses role v known refused]

theorem Spoils.optional? (spoils : Spoils inner (r.lookup? place name)) (default : α)
    (refuses : ∀ role v, inner = some role → role.read? v = none → read v = none) :
    r.optional? place name default read = none := by
  rcases spoils with twice | ⟨role, v, known, once, refused⟩
  · simp [Record.optional?, twice]
  · simp [Record.optional?, once, refuses role v known refused]

end

end Role

/-! ## Records that are read alike -/

section

open Role

variable {setting : Setting} {r r' : Record} {v v' : Value} {variant : String}

end

/-! ## Values that are read alike -/

namespace Role

variable {role : Role} {v v' : Value} {variant : Option String} {r r' : Record}

end Role

end TargetSpans
