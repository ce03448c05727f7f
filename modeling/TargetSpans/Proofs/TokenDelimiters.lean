import TargetSpans.Proofs.Stages

/-!
# Delimiters of a token

The delimiters of a token are either guessed from the text around it or taken from the siblings of
a node, and only the latter come with an outer range.  Both satisfy the same description, and the
outer range is what widening over the guessed delimiters would give, so that it does not matter
which way they were found.
-/

namespace TargetSpans

namespace Document

/-- What is known of the delimiters of a range fits the range and the text: delimiters are those of
a list, they touch the range, and the nearest one reads as the literal of the list. -/
structure Delimits (d : Document) (r : Range) (c : DelimiterContext) : Prop where
  inList_iff : c.inList = true ↔ c.literal.isSome
  inList_of_delimiter : c.leading.isSome ∨ c.trailing.isSome → c.inList = true
  leading_stop : ∀ delimiter, c.leading = some delimiter → delimiter.stop = r.start
  trailing_start : ∀ delimiter, c.trailing = some delimiter → delimiter.start = r.stop
  textOf_nearest : ∀ nearest, c.nearest? = some nearest → d.textOf? nearest = c.literal

variable {d : Document} {r : Range}

theorem delimits_of_inferDelimiters? {c : DelimiterContext} (rows : d.HasRows r)
    (guessed : d.inferDelimiters? r = some c) : d.Delimits r c ∧ c.outer = none := by
  obtain ⟨leading, trailing, before, after, alone | listed⟩ := exists_inferDelimiters? rows
  · obtain ⟨_, equal⟩ := alone
    cases equal.symm.trans guessed
    exact ⟨⟨by simp, by simp, by simp, by simp, by simp [DelimiterContext.nearest?]⟩, rfl⟩
  · obtain ⟨nearest, literal, nearestEq, text, equal⟩ := listed
    cases equal.symm.trans guessed
    refine ⟨⟨by simp [DelimiterContext.ofDelimiters], fun _ => rfl, ?_, ?_, ?_⟩, rfl⟩
    · rintro delimiter rfl
      exact (separatorsBefore?_touches rows.start_row before).1
    · rintro delimiter rfl
      exact (separatorsAfter?_touches rows.stop_row after).1
    · intro other found
      cases nearestEq.symm.trans found
      exact text

theorem delimits_of_siblingContext {t : SyntaxTree} {n : Node} {delimiter : String}
    {c : DelimiterContext} (within : Node.Within t n) (ordered : t.Ordered)
    (known : n.siblingContext d delimiter = .ok c) : d.Delimits (n.range d) c := by
  obtain ⟨_, defined, inList, literal, leading, trailing, text, _⟩ :=
    n.exists_siblingContext d delimiter
  cases known.symm.trans defined
  refine ⟨by simp [inList, literal], fun _ => inList, ?_, ?_, text⟩
  · intro other found
    exact Node.leadingDelimiter?_touches within ordered (leading.symm.trans found)
  · intro other found
    exact Node.trailingDelimiter?_touches within ordered (trailing.symm.trans found)

end Document

namespace TypedSpan

/-- The same typed span, meant with its delimiters. -/
def asOutside (t : TypedSpan) : TypedSpan := { t with insideOutside := some .outside }

/-- An outer range that takes in the nearest delimiter, and nothing else, makes no difference. -/
theorem widenOutside_asOutside {t : TypedSpan} (contents : t.placement = .contents)
    (outer : t.context.outer = none ∨
      t.context.outer = t.context.nearest?.map t.range.union) :
    t.asOutside.widenOutside =
      t.asOutside.withRange ((t.context.nearest?.map t.range.union).getD t.range) := by
  have widened : t.asOutside.widened? = t.context.nearest?.map t.range.union := by
    change (t.context.outer <|> t.context.nearest?.map t.range.union) = _
    rcases outer with none | same
    · rw [none]
      rfl
    · rw [same]
      cases t.context.nearest? <;> rfl
  have applies : t.asOutside.insideOutside = some .outside ∧
      t.asOutside.placement = .contents := ⟨rfl, contents⟩
  rw [widenOutside, if_pos applies, widened]
  cases t.context.nearest? with
  | none => rfl
  | some nearest =>
      have turned : (t.range.union nearest).toward t.asOutside.range.direction =
          t.range.union nearest := Range.toward_union t.range nearest
      simp only [Option.map_some, Option.getD_some, turned]

end TypedSpan

namespace Workspace

variable {w : Workspace} {d : Document} {s : Span}

/-- A part comes with an outer range exactly if it has a delimiter, and then the outer range takes
in the part and the nearest one. -/
theorem PartOf.outer_eq {m : Modifier} {part : Part} (means : w.PartOf d s m part) :
    part.context.outer = part.context.nearest?.map part.span.range.union := by
  cases means with
  | identity => rfl
  | piece first last => rfl
  | scope matcher tree within source =>
      rcases source.context with ⟨_, empty⟩ | ⟨delimiter, _, siblings⟩
      · simp only [empty]
        rfl
      · obtain ⟨_, defined, _, _, _, _, _, outer⟩ := Node.exists_siblingContext _ d delimiter
        cases siblings.symm.trans defined
        simp only [source.range]
        exact outer

/-- What is known of the delimiters of a part, unless nothing is, fits it. -/
theorem PartOf.delimits {m : Modifier} {part : Part}
    (ordered : ∀ id t, w.trees.get? id = some t → t.Ordered) (means : w.PartOf d s m part)
    (known : part.context.isEmpty = false) : d.Delimits part.span.range part.context := by
  cases means with
  | identity => cases known
  | piece first last => cases known
  | scope matcher tree within source =>
      rcases source.context with ⟨_, empty⟩ | ⟨delimiter, _, siblings⟩
      · simp only [empty] at known
        cases known
      · simp only [source.range]
        have inside := NodeMatcher.within_scopeNode? within source.narrowed
        exact Document.delimits_of_siblingContext inside (ordered _ _ tree) siblings

/-- The delimiters of a token fit its range, whichever way they were found. -/
theorem Produces.delimits {p : Primitive} {t : TypedSpan}
    (ordered : ∀ id t, w.trees.get? id = some t → t.Ordered)
    (token : p.selectionType = .token) (contents : p.placement = .contents)
    (produces : w.Produces p s t) :
    t.placement = .contents ∧ ∃ d, w.documents.get? t.doc = some d ∧
      d.Delimits t.range t.context ∧
        (t.context.outer = none ∨ t.context.outer = t.context.nearest?.map t.range.union) := by
  obtain @⟨d, part, range, context, document, anchor, head, means, grows⟩ := produces
  rw [token] at grows
  cases grows with
  | token kept inferred =>
      have sameDoc : part.span.doc = s.doc := means.doc_eq
      rw [Range.toward_eq_self_of_direction rfl, contents]
      refine ⟨rfl, d, (congrArg w.documents.get? sameDoc).trans document, ?_⟩
      change d.Delimits part.span.range context ∧
        (context.outer = none ∨ context.outer = context.nearest?.map part.span.range.union)
      cases empty : part.context.isEmpty with
      | true =>
          have rows := means.hasRows (Document.hasRows_of_contains anchor head)
          have guessed := Document.delimits_of_inferDelimiters? rows (inferred empty)
          exact ⟨guessed.1, Or.inl guessed.2⟩
      | false =>
          rw [kept empty]
          exact ⟨means.delimits ordered empty, Or.inr means.outer_eq⟩

/-- The delimiters of every token that a primitive target resolves to fit it, and widening it over
them is its union with the nearest one, whether or not its delimiters came with an outer range. -/
theorem resolvePrimitive_token_delimits (w : Workspace) (p : Primitive)
    (ordered : ∀ id t, w.trees.get? id = some t → t.Ordered)
    (token : p.selectionType = .token) (contents : p.placement = .contents)
    {spans : List TypedSpan} (resolved : w.resolvePrimitive p = .ok spans) :
    ∀ t ∈ spans, ∃ d, w.documents.get? t.doc = some d ∧ d.Delimits t.range t.context ∧
      t.asOutside.widenOutside =
        t.asOutside.withRange ((t.context.nearest?.map t.range.union).getD t.range) := by
  intro t member
  obtain ⟨s, produces⟩ := (w.resolvePrimitive_yields p).of_eq_ok resolved t member
  obtain ⟨placed, d, document, fits, outer⟩ := produces.delimits ordered token contents
  exact ⟨d, document, fits, TypedSpan.widenOutside_asOutside placed outer⟩

/-- The tree of the text `a, b`: two arguments with a comma between them. -/
def argumentsTree : SyntaxTree :=
  .node ⟨"arguments", true, none, 0, 4⟩
    [.node ⟨"argument", true, none, 0, 1⟩ [], .node ⟨",", false, none, 1, 2⟩ [],
      .node ⟨"argument", true, none, 3, 4⟩ []]

/-- The text `a, b` with its tree, a selection at its start, and a matcher for its arguments. -/
def arguments : Workspace where
  documents := .ofList [⟨⟨1⟩, "call", ['a', ',', ' ', 'b']⟩]
  selections := [⟨⟨1⟩, .point .origin⟩]
  trees := .ofList [(⟨1⟩, argumentsTree)]
  scopes := some (ScopeRegistry.empty.register "call" .argumentOrParameter
    { kinds := ["argument"], delimiter := some "," })

/-- The argument at the cursor, grown to a selection type and meant with its delimiters. -/
def argumentTarget (selectionType : SelectionType) : Primitive where
  mark := .cursor
  modifier := .containingScope .argumentOrParameter false
  selectionType
  insideOutside := some .outside

/-- The first argument of `a, b`, with the comma and the space after it. -/
def firstArgument : TypedSpan where
  span := ⟨⟨1⟩, ⟨⟨0, 0⟩, ⟨0, 1⟩⟩⟩
  selectionType := .token
  context := {
    inList := true
    literal := some [',', ' ']
    trailing := some ⟨⟨0, 1⟩, ⟨0, 3⟩⟩
    outer := some ⟨⟨0, 0⟩, ⟨0, 3⟩⟩ }
  insideOutside := some .outside

theorem ordered_argumentsTree : argumentsTree.Ordered := by
  have leaf : ∀ label : NodeLabel, label.start ≤ label.stop →
      (SyntaxTree.node label []).Ordered :=
    fun label extent => SyntaxTree.Ordered.node extent List.Pairwise.nil (by simp)
  apply SyntaxTree.Ordered.node (by decide) (by simp [SyntaxTree.label])
  intro child member
  simp only [List.mem_cons, List.not_mem_nil, or_false] at member
  rcases member with rfl | rfl | rfl
  all_goals exact leaf _ (by decide)

theorem arguments_trees_ordered :
    ∀ id t, arguments.trees.get? id = some t → t.Ordered := by
  intro id t found
  have tree : t = argumentsTree := Keyed.eq_of_get?_singleton found
  exact tree ▸ ordered_argumentsTree

theorem arguments_token :
    arguments.resolvePrimitive (argumentTarget .token) = .ok [firstArgument] :=
  rfl

theorem firstArgument_delimits :
    ∃ d, arguments.documents.get? firstArgument.doc = some d ∧
      d.Delimits firstArgument.range firstArgument.context ∧
        firstArgument.asOutside.widenOutside =
          firstArgument.asOutside.withRange ⟨⟨0, 0⟩, ⟨0, 3⟩⟩ :=
  resolvePrimitive_token_delimits arguments (argumentTarget .token) arguments_trees_ordered rfl rfl
    arguments_token firstArgument (List.mem_singleton_self firstArgument)

end Workspace

end TargetSpans
