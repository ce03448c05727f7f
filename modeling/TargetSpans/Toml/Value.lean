/-!
# TOML values

What a TOML text says.  Texts, arrays and tables are taken apart; numbers and dates are kept as
they are written.
-/

namespace TargetSpans.Toml

inductive Value where
  | string (s : String)
  | boolean (b : Bool)
  | integer (written : String)
  | float (written : String)
  | datetime (written : String)
  | array (items : List Value)
  | table (entries : List (String × Value))
  deriving Repr, Inhabited

def Value.string? : Value → Option String
  | .string s => some s
  | _ => none

def Value.strings? : Value → Option (List String)
  | .array items => items.mapM Value.string?
  | _ => none

/-- The entries of a table, in the order in which their keys first appear. -/
abbrev Table := List (String × Value)

def Table.get? (t : Table) (key : String) : Option Value :=
  (t.find? fun e => e.1 = key).map Prod.snd

end TargetSpans.Toml
