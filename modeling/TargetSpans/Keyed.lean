/-!
# Tables

A table holds one value for each of finitely many keys.
-/

namespace TargetSpans

/-- A finite table, as the list of its entries; no key has two of them. -/
structure Keyed (κ α : Type) where
  entries : List (κ × α)
  nodup : (entries.map Prod.fst).Nodup

namespace Keyed

variable {κ α : Type} [DecidableEq κ]

def empty : Keyed κ α := ⟨[], List.nodup_nil⟩

instance : Inhabited (Keyed κ α) := ⟨empty⟩

def get? (t : Keyed κ α) (key : κ) : Option α :=
  (t.entries.find? fun e => e.1 = key).map Prod.snd

def erase (t : Keyed κ α) (key : κ) : Keyed κ α where
  entries := t.entries.filter fun e => e.1 ≠ key
  nodup := t.nodup.sublist (List.filter_sublist.map Prod.fst)

/-- The table with the value of a key replaced or added. -/
def insert (t : Keyed κ α) (key : κ) (value : α) : Keyed κ α where
  entries := (key, value) :: (t.erase key).entries
  nodup := by
    refine List.nodup_cons.mpr ⟨?_, (t.erase key).nodup⟩
    simp [erase]

/-- The table of a list of entries, of which later ones replace earlier ones. -/
def ofList (entries : List (κ × α)) : Keyed κ α :=
  entries.foldl (fun t e => t.insert e.1 e.2) empty

def keys (t : Keyed κ α) : List κ := t.entries.map Prod.fst

def size (t : Keyed κ α) : Nat := t.entries.length

@[simp] theorem get?_empty (key : κ) : (empty : Keyed κ α).get? key = none := rfl

@[simp] theorem get?_erase_self (t : Keyed κ α) (key : κ) : (t.erase key).get? key = none := by
  simp [get?, erase]

theorem get?_erase_of_ne (t : Keyed κ α) {key other : κ} (ne : key ≠ other) :
    (t.erase key).get? other = t.get? other := by
  have kept : ∀ e : κ × α, e.1 ≠ key ∧ e.1 = other ↔ e.1 = other := by
    intro e
    refine ⟨And.right, fun same => ⟨?_, same⟩⟩
    rw [same]
    exact ne.symm
  simp [get?, erase, List.find?_filter, kept]

@[simp] theorem get?_insert_self (t : Keyed κ α) (key : κ) (value : α) :
    (t.insert key value).get? key = some value := by
  simp [get?, insert]

theorem get?_insert_of_ne (t : Keyed κ α) {key other : κ} (ne : key ≠ other) (value : α) :
    (t.insert key value).get? other = t.get? other := by
  rw [← t.get?_erase_of_ne ne]
  simp [get?, insert, ne]

/-- A property of all entries survives another entry that has it. -/
theorem of_get?_insert {t : Keyed κ α} {P : κ → α → Prop} {key : κ} {value : α} (new : P key value)
    (old : ∀ other found, t.get? other = some found → P other found) :
    ∀ other found, (t.insert key value).get? other = some found → P other found := by
  intro other found known
  by_cases same : key = other
  · subst same
    cases (t.get?_insert_self key value).symm.trans known
    exact new
  · exact old other found ((t.get?_insert_of_ne same value).symm.trans known)

theorem of_get?_erase {t : Keyed κ α} {P : κ → α → Prop} (key : κ)
    (old : ∀ other found, t.get? other = some found → P other found) :
    ∀ other found, (t.erase key).get? other = some found → P other found := by
  intro other found known
  by_cases same : key = other
  · subst same
    cases (t.get?_erase_self key).symm.trans known
  · exact old other found ((t.get?_erase_of_ne same).symm.trans known)

theorem eq_of_get?_singleton {key other : κ} {value found : α}
    (known : (ofList [(key, value)]).get? other = some found) : found = value := by
  have entry : key = other ∧ value = found := by
    simpa [ofList, insert, erase, empty, get?] using known
  exact entry.2.symm

end Keyed

end TargetSpans
