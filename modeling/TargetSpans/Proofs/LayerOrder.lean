import Mathlib.Data.List.Induction
import Mathlib.Data.List.Nodup
import TargetSpans.Scope.Builtin
import TargetSpans.Proofs.Layering

/-!
# Layers in order

A configuration that is built up in layers, from the empty one or the built-in one, never lists a
language twice.  So it says what the entries of all layers say one after another, and it makes no
difference which of the layers are put together first.  The built-in configuration is what its text
says, so that it may be taken for the first layer.
-/

namespace TargetSpans

namespace ScopeConfig

open ScopeRegistry

/-- No language is listed twice. -/
def Distinct (c : ScopeConfig) : Prop := (c.languages.map LanguageScopes.language).Nodup

theorem languages_layerEntry (entries : List LanguageScopes) (later : LanguageScopes) :
    (layerEntry entries later).map LanguageScopes.language =
      if later.language ∈ entries.map LanguageScopes.language then
        entries.map LanguageScopes.language
      else entries.map LanguageScopes.language ++ [later.language] := by
  induction entries with
  | nil => rfl
  | cons entry rest ih =>
      by_cases same : entry.language = later.language
      · rw [layerEntry_of_language_eq same]
        simp [LanguageScopes.layer, same]
      · rw [layerEntry_of_language_ne same, List.map_cons, ih, List.map_cons]
        by_cases known : later.language ∈ rest.map LanguageScopes.language <;>
          simp [known, Ne.symm same]

theorem nodup_layerEntry {entries : List LanguageScopes}
    (nodup : (entries.map LanguageScopes.language).Nodup) (later : LanguageScopes) :
    ((layerEntry entries later).map LanguageScopes.language).Nodup := by
  rw [languages_layerEntry]
  split
  case isTrue => exact nodup
  case isFalse new => exact List.concat_eq_append ▸ nodup.concat new

theorem nodup_foldl_layerEntry {entries : List LanguageScopes}
    (nodup : (entries.map LanguageScopes.language).Nodup) (layers : List LanguageScopes) :
    ((layers.foldl layerEntry entries).map LanguageScopes.language).Nodup := by
  induction layers generalizing entries with
  | nil => exact nodup
  | cons later rest ih => exact ih (nodup_layerEntry nodup later)

theorem eraseDups_of_nodup {names : List String} (nodup : names.Nodup) :
    names.eraseDups = names := by
  induction names with
  | nil => rfl
  | cons name rest ih =>
      obtain ⟨new, distinct⟩ := List.nodup_cons.mp nodup
      have kept : (rest.filter fun other => !other == name) = rest := by
        apply List.filter_eq_self.mpr
        intro other member
        simpa using fun equal : other = name => new (equal ▸ member)
      rw [List.eraseDups_cons, kept, ih distinct]

theorem eraseDups_concat (names : List String) (name : String) :
    (names ++ [name]).eraseDups =
      if name ∈ names then names.eraseDups else names.eraseDups ++ [name] := by
  rw [List.eraseDups_append, List.cons_removeAll]
  by_cases known : name ∈ names <;> simp [known, List.removeAll, List.eraseDups_cons]

/-- New languages are appended, in the order in which they first appear. -/
theorem languages_foldl_layerEntry {entries : List LanguageScopes}
    (nodup : (entries.map LanguageScopes.language).Nodup) (layers : List LanguageScopes) :
    (layers.foldl layerEntry entries).map LanguageScopes.language =
      ((entries ++ layers).map LanguageScopes.language).eraseDups := by
  induction layers using List.reverseRecOn with
  | nil => rw [List.foldl_nil, List.append_nil, eraseDups_of_nodup nodup]
  | append_singleton layers later ih =>
      have last : (entries ++ (layers ++ [later])).map LanguageScopes.language =
          (entries ++ layers).map LanguageScopes.language ++ [later.language] := by
        rw [← List.append_assoc, List.map_append, List.map_singleton]
      rw [List.foldl_append, List.foldl_cons, List.foldl_nil, languages_layerEntry, ih, last,
        eraseDups_concat]
      simp only [List.mem_eraseDups]

theorem repeats_eq_nil_of_nodup {entries : List LanguageScopes}
    (nodup : (entries.map LanguageScopes.language).Nodup) (language : String) :
    repeats entries language = [] := by
  induction entries with
  | nil => rfl
  | cons entry rest ih =>
      obtain ⟨new, distinct⟩ := List.nodup_cons.mp nodup
      by_cases own : entry.language = language
      · have others : (rest.filter fun entry => entry.language = language) = [] := by
          apply List.filter_eq_nil_iff.mpr
          intro other member
          have known := List.mem_map_of_mem (f := LanguageScopes.language) member
          simpa using fun equal : other.language = language => new (own.trans equal.symm ▸ known)
        rw [repeats, List.filter_cons_of_pos (by simpa using own), List.tail_cons, others]
      · rw [repeats, List.filter_cons_of_neg (by simpa using own)]
        exact ih distinct

/-! ## Layers of layers -/

theorem layerEntry_of_not_mem {entries : List LanguageScopes} {later : LanguageScopes}
    (new : later.language ∉ entries.map LanguageScopes.language) :
    layerEntry entries later = entries ++ [later] := by
  induction entries with
  | nil => rfl
  | cons entry rest ih =>
      simp only [List.map_cons, List.mem_cons, not_or] at new
      rw [layerEntry_of_language_ne (Ne.symm new.1), ih new.2, List.cons_append]

theorem layerEntry_layer (entries : List LanguageScopes) {entry later : LanguageScopes}
    (same : entry.language = later.language) :
    layerEntry entries (entry.layer later) = layerEntry (layerEntry entries entry) later := by
  have kept : (entry.layer later).language = entry.language := rfl
  induction entries with
  | nil => exact (layerEntry_of_language_eq same []).symm
  | cons first rest ih =>
      by_cases own : first.language = entry.language
      · have layered : (first.layer entry).language = later.language := own.trans same
        rw [layerEntry_of_language_eq (own.trans kept.symm), layerEntry_of_language_eq own,
          layerEntry_of_language_eq layered]
        simp [LanguageScopes.layer, Option.or_assoc]
      · rw [layerEntry_of_language_ne (kept ▸ own), layerEntry_of_language_ne own,
          layerEntry_of_language_ne (same ▸ own), ih]

/-- Entries for two languages may be layered in either order if one of the languages is known: only
new languages are appended. -/
theorem layerEntry_comm {entries : List LanguageScopes} {first second : LanguageScopes}
    (other : first.language ≠ second.language)
    (known : second.language ∈ entries.map LanguageScopes.language) :
    layerEntry (layerEntry entries first) second =
      layerEntry (layerEntry entries second) first := by
  induction entries with
  | nil => simp at known
  | cons entry rest ih =>
      by_cases ofFirst : entry.language = first.language
      · have notSecond : entry.language ≠ second.language := ofFirst ▸ other
        have layered : (entry.layer first).language ≠ second.language := notSecond
        rw [layerEntry_of_language_eq ofFirst, layerEntry_of_language_ne layered,
          layerEntry_of_language_ne notSecond, layerEntry_of_language_eq ofFirst]
      · by_cases ofSecond : entry.language = second.language
        · have layered : (entry.layer second).language ≠ first.language := ofFirst
          rw [layerEntry_of_language_ne ofFirst, layerEntry_of_language_eq ofSecond,
            layerEntry_of_language_eq ofSecond, layerEntry_of_language_ne layered]
        · have below : second.language ∈ rest.map LanguageScopes.language := by
            simpa [Ne.symm ofSecond] using known
          rw [layerEntry_of_language_ne ofFirst, layerEntry_of_language_ne ofSecond,
            layerEntry_of_language_ne ofSecond, layerEntry_of_language_ne ofFirst, ih below]

theorem mem_languages_layerEntry {entries : List LanguageScopes} {name : String}
    (known : name ∈ entries.map LanguageScopes.language) (later : LanguageScopes) :
    name ∈ (layerEntry entries later).map LanguageScopes.language := by
  rw [languages_layerEntry]
  split
  case isTrue => exact known
  case isFalse => exact List.mem_append_left _ known

theorem layerEntry_foldl_comm {layers entries : List LanguageScopes} {later : LanguageScopes}
    (known : later.language ∈ entries.map LanguageScopes.language)
    (other : later.language ∉ layers.map LanguageScopes.language) :
    layerEntry (layers.foldl layerEntry entries) later =
      layers.foldl layerEntry (layerEntry entries later) := by
  induction layers generalizing entries with
  | nil => rfl
  | cons first rest ih =>
      simp only [List.map_cons, List.mem_cons, not_or] at other
      rw [List.foldl_cons, List.foldl_cons, ih (mem_languages_layerEntry known first) other.2,
        layerEntry_comm (Ne.symm other.1) known]

theorem foldl_layerEntry_layerEntry {layers : List LanguageScopes}
    (nodup : (layers.map LanguageScopes.language).Nodup) (entries : List LanguageScopes)
    (later : LanguageScopes) :
    (layerEntry layers later).foldl layerEntry entries =
      layerEntry (layers.foldl layerEntry entries) later := by
  induction layers generalizing entries with
  | nil => rfl
  | cons first rest ih =>
      obtain ⟨new, distinct⟩ := List.nodup_cons.mp nodup
      by_cases same : first.language = later.language
      · have known : later.language ∈ (layerEntry entries first).map LanguageScopes.language := by
          rw [languages_layerEntry, ← same]
          split
          case isTrue member => exact member
          case isFalse => simp
        -- The other layers are for other languages, so `later` may as well come after all of them.
        rw [layerEntry_of_language_eq same, List.foldl_cons, List.foldl_cons,
          layerEntry_layer entries same, layerEntry_foldl_comm known (same ▸ new)]
      · rw [layerEntry_of_language_ne same, List.foldl_cons, List.foldl_cons, ih distinct]

theorem foldl_layerEntry_foldl {layers : List LanguageScopes}
    (nodup : (layers.map LanguageScopes.language).Nodup) (entries top : List LanguageScopes) :
    (top.foldl layerEntry layers).foldl layerEntry entries =
      top.foldl layerEntry (layers.foldl layerEntry entries) := by
  induction top generalizing layers with
  | nil => rfl
  | cons later rest ih =>
      rw [List.foldl_cons, List.foldl_cons, ih (nodup_layerEntry nodup later),
        foldl_layerEntry_layerEntry nodup]

theorem foldl_layerEntry_of_nodup {entries layers : List LanguageScopes}
    (nodup : ((entries ++ layers).map LanguageScopes.language).Nodup) :
    layers.foldl layerEntry entries = entries ++ layers := by
  induction layers generalizing entries with
  | nil => exact (List.append_nil entries).symm
  | cons later rest ih =>
      have split : entries ++ later :: rest = entries ++ [later] ++ rest := by simp
      have new : later.language ∉ entries.map LanguageScopes.language := by
        intro known
        rw [List.map_append, List.nodup_append] at nodup
        exact nodup.2.2 _ known _ (by simp) rfl
      rw [List.foldl_cons, layerEntry_of_not_mem new, split]
      exact ih (split ▸ nodup)

/-- It makes no difference which of three layers are put together first, if the middle one lists no
language twice. -/
theorem layer_assoc (a : ScopeConfig) {b : ScopeConfig} (distinct : b.Distinct) (c : ScopeConfig) :
    (a.layer b).layer c = a.layer (b.layer c) :=
  congrArg ScopeConfig.mk (foldl_layerEntry_foldl distinct a.languages c.languages).symm

theorem empty_layer {c : ScopeConfig} (distinct : c.Distinct) : empty.layer c = c := by
  have kept : c.languages.foldl layerEntry [] = [] ++ c.languages :=
    foldl_layerEntry_of_nodup distinct
  exact congrArg ScopeConfig.mk kept

theorem layer_empty (c : ScopeConfig) : c.layer empty = c :=
  rfl

/-! ## Any number of layers -/

/-- A configuration says what some entries say in their order. -/
structure Accumulates (c : ScopeConfig) (entries : List LanguageScopes) : Prop where
  distinct : c.Distinct
  /-- Languages are listed as they first appear. -/
  languages : c.languages.map LanguageScopes.language =
    (entries.map LanguageScopes.language).eraseDups
  matcher_isOk_iff : ∀ language kind, (∃ m, (ofConfig c).matcher language kind = .ok m) ↔
    ∃ entry ∈ entries, entry.language = language ∧ ∃ m, entry.scopes kind = some m
  /-- The last definition counts. -/
  matcher_iff : ∀ language kind m, (ofConfig c).matcher language kind = .ok m ↔
    ∃ before entry after, entries = before ++ entry :: after ∧ entry.language = language ∧
      entry.scopes kind = some m ∧
      ∀ later ∈ after, later.language = language → later.scopes kind = none
  entry?_iff : ∀ language kind m,
    (∃ entry, c.entry? language = some entry ∧ entry.scopes kind = some m) ↔
      (ofConfig c).matcher language kind = .ok m

theorem foldl_layer (start : ScopeConfig) (configs : List ScopeConfig) :
    configs.foldl layer start =
      ⟨(configs.flatMap ScopeConfig.languages).foldl layerEntry start.languages⟩ := by
  induction configs generalizing start with
  | nil => rfl
  | cons c rest ih =>
      rw [List.foldl_cons, ih, List.flatMap_cons, List.foldl_append]
      rfl

theorem matcher?_foldl_layerEntry {entries : List LanguageScopes}
    (nodup : (entries.map LanguageScopes.language).Nodup) (layers : List LanguageScopes)
    (language : String) (kind : ScopeKind) :
    (ofConfig ⟨layers.foldl layerEntry entries⟩).matcher? language kind =
      lastDefinition? (entries ++ layers) language kind := by
  rw [matcher?_ofConfig, lastDefinition?_foldl_layerEntry, repeats_eq_nil_of_nodup nodup,
    lastDefinition?_append]
  rfl

theorem accumulates_foldl_layerEntry {entries : List LanguageScopes}
    (nodup : (entries.map LanguageScopes.language).Nodup) (layers : List LanguageScopes) :
    Accumulates ⟨layers.foldl layerEntry entries⟩ (entries ++ layers) where
  distinct := nodup_foldl_layerEntry nodup layers
  languages := languages_foldl_layerEntry nodup layers
  matcher_isOk_iff language kind := by
    simp only [matcher_eq_ok_iff, matcher?_foldl_layerEntry nodup, exists_lastDefinition?_iff,
      LanguageScopes.definition?_eq_some_iff, exists_and_left]
  matcher_iff language kind m := by
    rw [matcher_eq_ok_iff, matcher?_foldl_layerEntry nodup, lastDefinition?_eq_some_iff]
    simp only [LanguageScopes.definition?_eq_some_iff, LanguageScopes.definition?_eq_none_iff,
      and_assoc]
  entry?_iff language kind m := by
    have first : repeats (layers.foldl layerEntry entries) language = [] :=
      repeats_eq_nil_of_nodup (nodup_foldl_layerEntry nodup layers) language
    rw [matcher_eq_ok_iff, matcher?_ofConfig, lastDefinition?_eq_or, first]
    exact Option.bind_eq_some_iff.symm

theorem distinct_empty : empty.Distinct :=
  List.nodup_nil

theorem distinct_builtin : builtin.Distinct :=
  List.nodup_singleton _

/-- Configurations layered in order on the empty or the built-in one list no language twice; the
languages stand as they first appear, and of all definitions of some scopes the last one counts, for
the registry and for a look at the entry of the language.  Layering is associative on configurations
that list no language twice, and the empty configuration changes nothing on either side. -/
theorem layers_accumulate (configs : List ScopeConfig) :
    (∀ start, start = empty ∨ start = builtin →
      Accumulates (configs.foldl layer start) ((start :: configs).flatMap languages)) ∧
    (∀ a b c : ScopeConfig, b.Distinct → (a.layer b).layer c = a.layer (b.layer c)) ∧
    ∀ c : ScopeConfig, c.Distinct → empty.layer c = c ∧ c.layer empty = c := by
  refine ⟨?_, fun a b c distinct => layer_assoc a distinct c,
    fun c distinct => ⟨empty_layer distinct, layer_empty c⟩⟩
  intro start which
  have distinct : start.Distinct := by
    rcases which with rfl | rfl
    · exact distinct_empty
    · exact distinct_builtin
  rw [foldl_layer, List.flatMap_cons]
  exact accumulates_foldl_layerEntry distinct (configs.flatMap languages)

/-- Lists in one language, defined twice. -/
def rustLists : ScopeConfig where
  languages :=
    [⟨"rust", fun kind => if kind = .list then some { kinds := ["array_expression"] } else none⟩,
      ⟨"rust", fun kind => if kind = .list then some { kinds := ["macro_invocation"] } else none⟩]

theorem rustLists_on_builtin :
    (ofConfig (builtin.layer rustLists)).matcher "rust" .list =
        .ok { kinds := ["macro_invocation"] } ∧
      (rustLists.layer builtin).layer rustLists = rustLists.layer (builtin.layer rustLists) ∧
      empty.layer builtin = builtin := by
  obtain ⟨accumulates, assoc, identity⟩ := layers_accumulate [rustLists]
  refine ⟨?_, assoc _ _ _ distinct_builtin, (identity _ distinct_builtin).1⟩
  refine ((accumulates builtin (Or.inr rfl)).matcher_iff "rust" .list _).mpr ?_
  exact ⟨[⟨"rust", rustScopes⟩, rustLists.languages.head (by simp [rustLists])], _, [], rfl, rfl,
    rfl, by simp⟩

/-! ## The text of the built-in scopes -/

/-- What a configuration says of every kind of scopes, language by language. -/
def listed (c : ScopeConfig) : List (String × List (Option ScopeDefinition)) :=
  c.languages.map fun entry => (entry.language, ScopeKind.all.map entry.definitions)

/-- Nothing else is in a configuration. -/
theorem listed_injective : Function.Injective listed := by
  have entries : Function.Injective fun entry : LanguageScopes =>
      (entry.language, ScopeKind.all.map entry.definitions) := by
    rintro ⟨language, f⟩ ⟨_, g⟩ equal
    obtain ⟨rfl, same⟩ := Prod.mk.inj equal
    have agree : f = g := funext fun kind => List.map_inj_left.mp same kind (ScopeKind.mem_all kind)
    rw [agree]
  intro a b equal
  have languages := List.map_injective_iff.mpr entries equal
  exact congrArg ScopeConfig.mk languages

theorem ofToml_builtinText : ofToml builtinText = .ok builtin := by
  have answers : ((Toml.parse? builtinText).bind ofTable?).map listed = some (listed builtin) := by
    rw [Toml.parse?_of_chars (by rw [builtinText])]
    decide +kernel
  obtain ⟨config, read, same⟩ := Option.map_eq_some_iff.mp answers
  rw [ofToml, read, listed_injective same]

/-- Layers on the built-in configuration are layers on its text. -/
theorem layerToml_builtinText (texts : List String) :
    layerToml empty (builtinText :: texts) = layerToml builtin texts := by
  rw [layerToml, List.foldlM_cons, ofToml_builtinText]
  exact congrArg (layerToml · texts) (empty_layer distinct_builtin)

end ScopeConfig

end TargetSpans
