import Mathlib.Data.List.Basic
import TargetSpans.Scope.ConfigToml

/-!
# Layered configurations

A registry gives the matcher of the last entry of its configuration that defines the scopes asked
for, while layering writes into the first entry of a language.  So a second entry for a language
hides what is layered on the first one, and nothing else keeps a layer from taking precedence.
-/

namespace TargetSpans

namespace LanguageScopes

theorem scopes_layer (base later : LanguageScopes) (kind : ScopeKind) :
    (base.layer later).scopes kind = (later.scopes kind).or (base.scopes kind) := by
  cases given : later.definitions kind <;> simp [scopes, layer, given]

/-- What an entry gives for the scopes of a kind in a language. -/
def definition? (entry : LanguageScopes) (language : String) (kind : ScopeKind) :
    Option NodeMatcher :=
  if entry.language = language then entry.scopes kind else none

theorem definition?_eq_some_iff {entry : LanguageScopes} {language : String} {kind : ScopeKind}
    {m : NodeMatcher} :
    entry.definition? language kind = some m ↔
      entry.language = language ∧ entry.scopes kind = some m := by
  by_cases own : entry.language = language <;> simp [definition?, own]

theorem definition?_eq_none_iff {entry : LanguageScopes} {language : String} {kind : ScopeKind} :
    entry.definition? language kind = none ↔
      (entry.language = language → entry.scopes kind = none) := by
  by_cases own : entry.language = language <;> simp [definition?, own]

end LanguageScopes

namespace ScopeConfig

section

variable (entries : List LanguageScopes) (language : String) (kind : ScopeKind)

/-- What the last of some entries that defines the scopes of a kind gives for them. -/
def lastDefinition? : Option NodeMatcher :=
  (entries.filterMap fun entry => entry.definition? language kind).getLast?

/-- What the first of some entries for a language gives for the scopes of a kind. -/
def firstDefinition? : Option NodeMatcher :=
  (entries.find? fun entry => entry.language = language).bind fun entry => entry.scopes kind

/-- The entries for a language after its first one. -/
def repeats : List LanguageScopes :=
  (entries.filter fun entry => entry.language = language).tail

end

variable {entries : List LanguageScopes} {language : String} {kind : ScopeKind}

theorem lastDefinition?_append (first second : List LanguageScopes) :
    lastDefinition? (first ++ second) language kind =
      (lastDefinition? second language kind).or (lastDefinition? first language kind) := by
  simp [lastDefinition?, List.getLast?_append]

theorem lastDefinition?_cons (entry : LanguageScopes) (rest : List LanguageScopes) :
    lastDefinition? (entry :: rest) language kind =
      (lastDefinition? rest language kind).or (entry.definition? language kind) := by
  rw [← List.singleton_append, lastDefinition?_append]
  congr 1
  cases given : entry.definition? language kind <;> simp [lastDefinition?, given]

theorem lastDefinition?_filter :
    lastDefinition? (entries.filter fun entry => entry.language = language) language kind =
      lastDefinition? entries language kind := by
  simp only [lastDefinition?, List.filterMap_filter]
  congr 2
  funext entry
  simp +contextual [LanguageScopes.definition?]

theorem lastDefinition?_eq_or (entries : List LanguageScopes) :
    lastDefinition? entries language kind =
      (lastDefinition? (repeats entries language) language kind).or
        (firstDefinition? entries language kind) := by
  rw [← lastDefinition?_filter, repeats, firstDefinition?, ← List.head?_filter]
  cases found : entries.filter fun entry => entry.language = language with
  | nil => rfl
  | cons entry rest =>
      have member : entry ∈ entries.filter fun entry => entry.language = language := by simp [found]
      have own : entry.language = language := by simpa using (List.mem_filter.mp member).2
      rw [lastDefinition?_cons]
      simp [LanguageScopes.definition?, own]

theorem lastDefinition?_eq_some_iff {m : NodeMatcher} :
    lastDefinition? entries language kind = some m ↔
      ∃ before entry after, entries = before ++ entry :: after ∧
        entry.definition? language kind = some m ∧
        ∀ later ∈ after, later.definition? language kind = none := by
  rw [lastDefinition?, List.getLast?_filterMap, List.findSome?_eq_some_iff]
  constructor
  · rintro ⟨after, entry, before, split, given, silent⟩
    refine ⟨before.reverse, entry, after.reverse, ?_, given, ?_⟩
    · simpa using congrArg List.reverse split
    · exact fun later member => silent later (List.mem_reverse.mp member)
  · rintro ⟨before, entry, after, rfl, given, silent⟩
    refine ⟨after.reverse, entry, before.reverse, by simp, given, ?_⟩
    exact fun later member => silent later (List.mem_reverse.mp member)

theorem lastDefinition?_eq_none_iff :
    lastDefinition? entries language kind = none ↔
      ∀ entry ∈ entries, entry.definition? language kind = none := by
  simp [lastDefinition?, List.getLast?_filterMap]

theorem exists_lastDefinition?_iff :
    (∃ m, lastDefinition? entries language kind = some m) ↔
      ∃ entry ∈ entries, ∃ m, entry.definition? language kind = some m := by
  rw [← Option.ne_none_iff_exists', ne_eq, lastDefinition?_eq_none_iff]
  simp only [not_forall, exists_prop, ← ne_eq, Option.ne_none_iff_exists']

end ScopeConfig

/-! ## What a registry answers -/

namespace ScopeRegistry

def matcher? (r : ScopeRegistry) (language : String) (kind : ScopeKind) : Option NodeMatcher :=
  r.matchers.get? (language, kind)

variable {r : ScopeRegistry} {language : String} {kind : ScopeKind}

theorem matcher_eq_ok_iff {m : NodeMatcher} :
    r.matcher language kind = .ok m ↔ r.matcher? language kind = some m := by
  unfold matcher matcher?
  cases r.matchers.get? (language, kind) <;> simp [Answer.refuse]

theorem matcher_eq_refuse_iff :
    r.matcher language kind = .refuse (.noScopeMatcher language kind) ↔
      r.matcher? language kind = none := by
  unfold matcher matcher?
  cases r.matchers.get? (language, kind) <;> simp [Answer.refuse]

theorem matcher?_register (r : ScopeRegistry) (other : String) (kind' : ScopeKind)
    (m : NodeMatcher) :
    (r.register other kind' m).matcher? language kind =
      if other = language ∧ kind' = kind then some m else r.matcher? language kind := by
  unfold matcher? register
  split
  case isTrue same =>
    obtain ⟨rfl, rfl⟩ := same
    exact Keyed.get?_insert_self _ _ _
  case isFalse differs =>
    apply Keyed.get?_insert_of_ne
    simpa using differs

/-- The registry with the matcher of an entry for one kind, if it has one. -/
def registerKind (entry : LanguageScopes) (r : ScopeRegistry) (kind : ScopeKind) : ScopeRegistry :=
  match entry.scopes kind with
  | some m => r.register entry.language kind m
  | none => r

theorem registerEntry_eq (r : ScopeRegistry) (entry : LanguageScopes) :
    r.registerEntry entry = ScopeKind.all.foldl (registerKind entry) r :=
  rfl

theorem matcher?_registerKind (entry : LanguageScopes) (r : ScopeRegistry) (other : ScopeKind) :
    (registerKind entry r other).matcher? language kind =
      if other = kind then (entry.definition? language kind).or (r.matcher? language kind)
      else r.matcher? language kind := by
  unfold registerKind LanguageScopes.definition?
  by_cases same : other = kind
  · subst same
    cases entry.scopes other with
    | none => simp
    | some m =>
        rw [matcher?_register]
        by_cases own : entry.language = language <;> simp [own]
  · cases entry.scopes other <;> simp [matcher?_register, same]

theorem matcher?_foldl_registerKind (entry : LanguageScopes) (kinds : List ScopeKind)
    (r : ScopeRegistry) :
    (kinds.foldl (registerKind entry) r).matcher? language kind =
      if kind ∈ kinds then (entry.definition? language kind).or (r.matcher? language kind)
      else r.matcher? language kind := by
  induction kinds generalizing r with
  | nil => simp
  | cons other rest ih =>
      rw [List.foldl_cons, ih, matcher?_registerKind]
      by_cases same : other = kind
      · -- A kind that comes up again is registered with the same matcher.
        cases entry.definition? language kind <;> simp [same]
      · simp [same, Ne.symm same]

theorem matcher?_registerEntry (r : ScopeRegistry) (entry : LanguageScopes) :
    (r.registerEntry entry).matcher? language kind =
      (entry.definition? language kind).or (r.matcher? language kind) := by
  rw [registerEntry_eq, matcher?_foldl_registerKind, if_pos (ScopeKind.mem_all kind)]

theorem matcher?_foldl_registerEntry (entries : List LanguageScopes) (r : ScopeRegistry) :
    (entries.foldl registerEntry r).matcher? language kind =
      (ScopeConfig.lastDefinition? entries language kind).or (r.matcher? language kind) := by
  induction entries generalizing r with
  | nil => rfl
  | cons entry rest ih =>
      rw [List.foldl_cons, ih, matcher?_registerEntry, ScopeConfig.lastDefinition?_cons,
        Option.or_assoc]

theorem matcher?_ofConfig (c : ScopeConfig) :
    (ofConfig c).matcher? language kind =
      ScopeConfig.lastDefinition? c.languages language kind := by
  rw [ofConfig, matcher?_foldl_registerEntry]
  exact Option.or_none

end ScopeRegistry

/-! ## One layer -/

namespace ScopeConfig

variable {entries : List LanguageScopes} {language : String} {kind : ScopeKind}

theorem layerEntry_of_language_eq {entry later : LanguageScopes}
    (same : entry.language = later.language) (rest : List LanguageScopes) :
    layerEntry (entry :: rest) later = entry.layer later :: rest :=
  if_pos same

theorem layerEntry_of_language_ne {entry later : LanguageScopes}
    (other : entry.language ≠ later.language) (rest : List LanguageScopes) :
    layerEntry (entry :: rest) later = entry :: layerEntry rest later :=
  if_neg other

/-- A layer on the first of some entries for its language. -/
def layerFirst (later : LanguageScopes) : List LanguageScopes → List LanguageScopes
  | [] => [later]
  | entry :: rest => entry.layer later :: rest

/-- Among the entries for a language, a layer is written into the first one. -/
theorem filter_layerEntry (entries : List LanguageScopes) (later : LanguageScopes)
    (language : String) :
    ((layerEntry entries later).filter fun entry => entry.language = language) =
      if later.language = language then
        layerFirst later (entries.filter fun entry => entry.language = language)
      else entries.filter fun entry => entry.language = language := by
  induction entries with
  | nil => by_cases own : later.language = language <;> simp [layerEntry, layerFirst, own]
  | cons entry rest ih =>
      by_cases same : entry.language = later.language
      · have kept : (entry.layer later).language = later.language := same
        rw [layerEntry_of_language_eq same]
        by_cases own : later.language = language <;> simp [layerFirst, kept, same, own]
      · rw [layerEntry_of_language_ne same, List.filter_cons, ih]
        by_cases own : later.language = language
        · have other : entry.language ≠ language := fun equal => same (equal.trans own.symm)
          simp [own, other]
        · by_cases here : entry.language = language <;> simp [own, here]

theorem repeats_layerEntry (entries : List LanguageScopes) (later : LanguageScopes)
    (language : String) :
    repeats (layerEntry entries later) language = repeats entries language := by
  rw [repeats, repeats, filter_layerEntry]
  split
  case isTrue =>
    cases entries.filter fun entry => entry.language = language with
    | nil => rfl
    | cons entry rest => rfl
  case isFalse => rfl

theorem firstDefinition?_layerEntry (entries : List LanguageScopes) (later : LanguageScopes) :
    firstDefinition? (layerEntry entries later) language kind =
      (later.definition? language kind).or (firstDefinition? entries language kind) := by
  rw [firstDefinition?, firstDefinition?, ← List.head?_filter, ← List.head?_filter,
    filter_layerEntry]
  by_cases own : later.language = language
  · rw [if_pos own]
    cases entries.filter fun entry => entry.language = language with
    | nil => simp [layerFirst, LanguageScopes.definition?, own]
    | cons entry rest =>
        simp [layerFirst, LanguageScopes.definition?, LanguageScopes.scopes_layer, own]
  · simp [LanguageScopes.definition?, own]

/-! ## A configuration on another one -/

theorem repeats_foldl_layerEntry (layers entries : List LanguageScopes) (language : String) :
    repeats (layers.foldl layerEntry entries) language = repeats entries language := by
  induction layers generalizing entries with
  | nil => rfl
  | cons later rest ih => rw [List.foldl_cons, ih, repeats_layerEntry]

theorem firstDefinition?_foldl_layerEntry (layers entries : List LanguageScopes) :
    firstDefinition? (layers.foldl layerEntry entries) language kind =
      (lastDefinition? layers language kind).or (firstDefinition? entries language kind) := by
  induction layers generalizing entries with
  | nil => rfl
  | cons later rest ih =>
      rw [List.foldl_cons, ih, firstDefinition?_layerEntry, lastDefinition?_cons, Option.or_assoc]

/-- What counts after layering: a repeated entry of the base before all layers, then the layers, and
then the base. -/
theorem lastDefinition?_foldl_layerEntry (layers entries : List LanguageScopes) :
    lastDefinition? (layers.foldl layerEntry entries) language kind =
      (lastDefinition? (repeats entries language) language kind).or
        ((lastDefinition? layers language kind).or (lastDefinition? entries language kind)) := by
  rw [lastDefinition?_eq_or, repeats_foldl_layerEntry, firstDefinition?_foldl_layerEntry,
    lastDefinition?_eq_or entries]
  cases lastDefinition? (repeats entries language) language kind <;> simp

theorem matcher?_layer (base other : ScopeConfig) :
    (ScopeRegistry.ofConfig (base.layer other)).matcher? language kind =
      (lastDefinition? (repeats base.languages language) language kind).or
        (((ScopeRegistry.ofConfig other).matcher? language kind).or
          ((ScopeRegistry.ofConfig base).matcher? language kind)) := by
  simp only [ScopeRegistry.matcher?_ofConfig]
  exact lastDefinition?_foldl_layerEntry other.languages base.languages

end ScopeConfig

namespace ScopeRegistry

/-- For some scopes, a registry answers as a later one laid over an earlier one would. -/
structure LaysOver (r later base : ScopeRegistry) (language : String) (kind : ScopeKind) :
    Prop where
  of_later : ∀ m, later.matcher language kind = .ok m → r.matcher language kind = .ok m
  of_base : ∀ m, later.matcher language kind = .refuse (.noScopeMatcher language kind) →
    base.matcher language kind = .ok m → r.matcher language kind = .ok m
  of_neither : later.matcher language kind = .refuse (.noScopeMatcher language kind) →
    base.matcher language kind = .refuse (.noScopeMatcher language kind) →
    r.matcher language kind = .refuse (.noScopeMatcher language kind)

theorem laysOver_iff {r later base : ScopeRegistry} {language : String} {kind : ScopeKind} :
    r.LaysOver later base language kind ↔
      r.matcher? language kind =
        (later.matcher? language kind).or (base.matcher? language kind) := by
  constructor
  · rintro ⟨ofLater, ofBase, ofNeither⟩
    simp only [matcher_eq_ok_iff, matcher_eq_refuse_iff] at ofLater ofBase ofNeither
    cases inLater : later.matcher? language kind with
    | some m => exact ofLater m inLater
    | none =>
        cases inBase : base.matcher? language kind with
        | some m => exact ofBase m inLater inBase
        | none => exact ofNeither inLater inBase
  · intro equal
    constructor <;> simp only [matcher_eq_ok_iff, matcher_eq_refuse_iff, equal]
    · intro m inLater
      rw [inLater, Option.some_or]
    · intro m inLater inBase
      rw [inLater, inBase, Option.none_or]
    · intro inLater inBase
      rw [inLater, inBase, Option.none_or]

end ScopeRegistry

namespace ScopeConfig

open ScopeRegistry

theorem language_of_mem_repeats {entries : List LanguageScopes} {entry : LanguageScopes}
    {language : String} (member : entry ∈ repeats entries language) :
    entry.language = language := by
  simpa using (List.mem_filter.mp (List.mem_of_mem_tail member)).2

theorem lastDefinition?_repeats_eq_none_iff {entries : List LanguageScopes} {language : String}
    {kind : ScopeKind} :
    lastDefinition? (repeats entries language) language kind = none ↔
      ∀ entry ∈ repeats entries language, entry.scopes kind = none := by
  simp only [lastDefinition?_eq_none_iff, LanguageScopes.definition?_eq_none_iff]
  exact forall₂_congr fun entry member => forall_prop_of_true (language_of_mem_repeats member)

/-- A layer takes precedence over its base for some scopes, unless it defines them and the base has
a second entry for their language that defines them otherwise.  Then the base keeps its matcher. -/
theorem layer_laysOver_iff (base other : ScopeConfig) (language : String) (kind : ScopeKind) :
    ((ofConfig (base.layer other)).LaysOver (ofConfig other) (ofConfig base) language kind ↔
      ∀ m, (ofConfig other).matcher language kind = .ok m →
        (∀ entry ∈ repeats base.languages language, entry.scopes kind = none) ∨
          (ofConfig base).matcher language kind = .ok m) ∧
    (¬ (ofConfig (base.layer other)).LaysOver (ofConfig other) (ofConfig base) language kind →
      ∃ m, (ofConfig base).matcher language kind = .ok m ∧
        (ofConfig (base.layer other)).matcher language kind = .ok m) := by
  have inBase : (ofConfig base).matcher? language kind =
      (lastDefinition? (repeats base.languages language) language kind).or
        (firstDefinition? base.languages language kind) :=
    (matcher?_ofConfig base).trans (lastDefinition?_eq_or base.languages)
  simp only [laysOver_iff, matcher_eq_ok_iff, matcher?_layer, inBase,
    ← lastDefinition?_repeats_eq_none_iff]
  cases lastDefinition? (repeats base.languages language) language kind with
  | none => simp
  | some m => cases (ofConfig other).matcher? language kind <;> simp [eq_comm]

/-- A text with two entries for one language. -/
def twoEntries : String :=
  "[[language]]
language-id='x'
scopes.list.kinds=['a']
[[language]]
language-id='x'
scopes.list.kinds=['b']"

/-- A text with one entry for the same language. -/
def oneEntry : String := "[[language]]\nlanguage-id='x'\nscopes.list.kinds=['c']"

/-- What such an entry says. -/
def listEntry (kind : String) : Toml.Value :=
  .table [("language-id", .string "x"),
    ("scopes", .table [("list", .table [("kinds", .array [.string kind])])])]

theorem not_laysOver_twoEntries :
    ∃ base other, ofToml twoEntries = .ok base ∧ ofToml oneEntry = .ok other ∧
      ¬ (ofConfig (base.layer other)).LaysOver (ofConfig other) (ofConfig base) "x" .list := by
  have parsedBase : Toml.parse? twoEntries =
      some [("language", .array [listEntry "a", listEntry "b"])] := by
    rw [Toml.parse?_of_chars (by rw [twoEntries])]
    rfl
  have parsedOther : Toml.parse? oneEntry = some [("language", .array [listEntry "c"])] := by
    rw [Toml.parse?_of_chars (by rw [oneEntry])]
    rfl
  refine ⟨_, _, by rw [ofToml, parsedBase]; rfl, by rw [ofToml, parsedOther]; rfl, ?_⟩
  intro precedence
  have kept := precedence.of_later { kinds := ["c"] } rfl
  exact absurd kept (by decide)

end ScopeConfig

end TargetSpans
